import Mathlib
import Grbl.Vfs.Mounts

/-!
# Lookups in the mount table

* `asDir_eq`, `pathIsMountDir_eq` : the test for a mount directory compares with the path as a directory;
* `Inv`, `Inv.longest` : the invariant of the table, and what `get_mount` finds under it;
* `Inv.mount`, `Inv.unmount`, `Inv.chdir` : one call; `resolves_of_safe` : every safe run;
* `nested_mount_is_hidden`, `unmount_removes_parent`, `unmount_frees_root` : runs that are not;
* `getFilename_append` : the name a file system is given.
-/

namespace Grbl.Vfs
open Lib

variable {m m' : Machine} {path : Path} {r : Reference} {e : Mount}

/-! ## Paths as directories -/

/-- `plen` in `path_is_mount_dir` -/
theorem asDir_eq (path : Path) :
    asDir path = path.take (if path.getLast? = some '/' then path.length - 1 else path.length) ++ ['/'] := by
  unfold asDir
  split
  case isTrue h =>
    rw [← List.dropLast_eq_take]
    exact (List.dropLast_append_getLast? '/' h).symm
  case isFalse => rw [List.take_length]

theorem asDir_getLast (path : Path) : (asDir path).getLast? = some '/' := by
  rw [asDir_eq, List.getLast?_append]
  rfl

theorem asDir_ne_root (hne : path ≠ []) (hroot : path ≠ ['/']) : asDir path ≠ ['/'] := by
  unfold asDir
  split
  · exact hroot
  · intro h
    exact hne (List.append_left_eq_self.1 h)

theorem asDir_root : asDir ['/'] = ['/'] := rfl

/-- For a path that ends in a separator, the comparison of `path_is_mount_dir` is one of directories. -/
theorem is_mount_dir_iff {dir : Path} (hdir : dir.getLast? = some '/') (path : Path) :
    (dir.length - 1 = (if path.getLast? = some '/' then path.length - 1 else path.length) ∧
      dir.take (if path.getLast? = some '/' then path.length - 1 else path.length) =
        path.take (if path.getLast? = some '/' then path.length - 1 else path.length)) ↔ dir = asDir path := by
  rw [asDir_eq]
  generalize hplen : (if path.getLast? = some '/' then path.length - 1 else path.length) = plen
  have hle : plen ≤ path.length := by
    rw [← hplen]
    split <;> omega
  have hsplit : dir.take (dir.length - 1) ++ ['/'] = dir := by
    rw [← List.dropLast_eq_take]
    exact List.dropLast_append_getLast? '/' hdir
  constructor
  · rintro ⟨hlen, htake⟩
    rw [← htake, ← hlen]
    exact hsplit.symm
  · rintro rfl
    rw [List.length_append, List.length_take, min_eq_left hle]
    refine ⟨Nat.add_sub_cancel .., ?_⟩
    exact List.take_left' (by rw [List.length_take, min_eq_left hle])

/-! ## The invariant -/

structure Inv (m : Machine) (r : Reference) : Prop where
  fault : m.fault = false
  path : ∀ e ∈ m.mounts, e.path.getLast? = some '/' ∧ e.path ≠ ['/']
  vfs : ∀ e ∈ m.mounts, e.vfs ≠ .null
  deepest : DeepestFirst Mount.path m.mounts
  addr : (m.table.map Mount.addr).Nodup
  cwdmount : m.cwdmount ∈ m.table.map Mount.addr
  mirrors : Mirrors m r

theorem pathIsMountDir_root (m : Machine) : m.pathIsMountDir ['/'] = some m.root := if_pos rfl

theorem Inv.pathIsMountDir_eq (h : Inv m r) (hroot : path ≠ ['/']) :
    m.pathIsMountDir path = m.mounts.find? fun e => e.path = asDir path := by
  rw [Machine.pathIsMountDir, if_neg hroot]
  refine List.find?_congr fun e he => ?_
  exact decide_eq_decide.2 (is_mount_dir_iff (h.path e he).1 path)

theorem Inv.exact (h : Inv m r) (hroot : path ≠ ['/']) (he : m.pathIsMountDir path = some e) :
    e ∈ m.mounts ∧ e.path = asDir path := by
  rw [h.pathIsMountDir_eq hroot] at he
  exact ⟨List.mem_of_find?_eq_some he, by simpa using List.find?_some he⟩

theorem Inv.not_mounted (h : Inv m r) (hnone : m.pathIsMountDir path = none) :
    path ≠ ['/'] ∧ ∀ e ∈ m.mounts, e.path ≠ asDir path := by
  have hroot : path ≠ ['/'] := by
    rintro rfl
    rw [pathIsMountDir_root] at hnone
    cases hnone
  rw [h.pathIsMountDir_eq hroot, List.find?_eq_none] at hnone
  exact ⟨hroot, fun e he => by simpa using hnone e he⟩

theorem prefix_asDir_iff {dir : Path} (hne : dir ≠ asDir path) : dir <+: asDir path ↔ dir <+: path := by
  unfold asDir at hne ⊢
  split at hne
  case isTrue h => rw [if_pos h]
  case isFalse h =>
    rw [if_neg h]
    constructor
    · intro hp
      exact (List.prefix_concat_iff.1 hp).resolve_left hne
    · exact fun hp => hp.trans (List.prefix_append _ _)

theorem root_prefix (habs : path.head? = some '/') : ['/'] <+: asDir path := by
  obtain ⟨l, rfl⟩ : ∃ l, path = '/' :: l := by
    cases path with
    | nil => cases habs
    | cons c l =>
        cases habs
        exact ⟨l, rfl⟩
  unfold asDir
  split <;> exact ⟨_, rfl⟩

theorem Inv.longest_table (h : Inv m r) (hlongest : Longest Mount.path m.mounts (asDir path) e) :
    Longest Mount.path m.table (asDir path) e := by
  refine ⟨List.mem_cons_of_mem _ hlongest.mem, hlongest.covers, fun b hb hbq => ?_⟩
  rcases List.mem_cons.1 hb with rfl | hb
  · have hpos : 0 < e.path.length := List.length_pos_of_ne_nil fun hnil => by
      have hlast := (h.path e hlongest.mem).1
      rw [hnil] at hlast
      cases hlast
    exact hpos
  · exact hlongest.longest b hb hbq

theorem Inv.longest (h : Inv m r) (habs : path.head? = some '/') :
    ∃ e, Longest Mount.path m.table (asDir path) e ∧ m.getMount path = e.addr := by
  rw [Machine.getMount, if_neg (not_not_intro habs)]
  cases hexact : m.pathIsMountDir path with
  | some e =>
      refine ⟨e, ?_, rfl⟩
      by_cases hroot : path = ['/']
      · rw [hroot, pathIsMountDir_root] at hexact
        cases hexact
        rw [hroot]
        exact ⟨List.mem_cons_self .., List.prefix_rfl, fun b _ hb => hb.length_le⟩
      · obtain ⟨hmem, hpath⟩ := h.exact hroot hexact
        exact ⟨List.mem_cons_of_mem _ hmem, hpath ▸ List.prefix_rfl, fun b _ hb => hpath ▸ hb.length_le⟩
  | none =>
      obtain ⟨-, hne⟩ := h.not_mounted hexact
      have hfind : (m.mounts.find? fun e => e.path <+: path) = m.mounts.find? fun e => e.path <+: asDir path :=
        List.find?_congr fun e he => decide_eq_decide.2 (prefix_asDir_iff (hne e he)).symm
      dsimp only
      rw [hfind]
      cases hfirst : m.mounts.find? fun e => e.path <+: asDir path with
      | some e => exact ⟨e, h.longest_table (h.deepest.longest hfirst), rfl⟩
      | none =>
          refine ⟨m.root, ⟨List.mem_cons_self .., root_prefix habs, fun b hb hbq => ?_⟩, rfl⟩
          rcases List.mem_cons.1 hb with rfl | hb
          · exact le_rfl
          · exact absurd hbq (by simpa using List.find?_eq_none.1 hfirst b hb)

theorem Inv.resolves (h : Inv m r) : Resolves m := ⟨h.fault, h.addr, fun _ => h.longest, h.cwdmount⟩

/-! ## Calls -/

theorem Inv.mirrors_root (h : Inv m r) : r ['/'] = some m.rootVfs :=
  (h.mirrors _ _).1 ⟨m.root, List.mem_cons_self .., rfl, rfl⟩

theorem Inv.setRoot (h : Inv m r) (fs : Fs) (cwdName : Path) :
    Inv { m with rootVfs := fs, cwdName := cwdName } (Function.update r ['/'] (some fs)) := by
  refine ⟨h.fault, h.path, h.vfs, h.deepest, h.addr, h.cwdmount, fun dir fs' => ?_⟩
  by_cases hdir : dir = ['/']
  · rw [hdir, Function.update_self]
    constructor
    · rintro ⟨e, he, hpath, rfl⟩
      rcases List.mem_cons.1 he with rfl | he
      · rfl
      · exact absurd hpath (h.path e he).2
    · intro hfs
      exact ⟨_, List.mem_cons_self .., rfl, Option.some.inj hfs⟩
  · rw [Function.update_of_ne hdir, ← h.mirrors]
    constructor
    · rintro ⟨e, he, hpath, hvfs⟩
      rcases List.mem_cons.1 he with rfl | he
      · exact absurd hpath.symm hdir
      · exact ⟨e, List.mem_cons_of_mem _ he, hpath, hvfs⟩
    · rintro ⟨e, he, hpath, hvfs⟩
      rcases List.mem_cons.1 he with rfl | he
      · exact absurd hpath.symm hdir
      · exact ⟨e, List.mem_cons_of_mem _ he, hpath, hvfs⟩

theorem Inv.attach (h : Inv m r) (hne : path ≠ []) (hnone : m.pathIsMountDir path = none)
    (hbelow : ∀ e ∈ m.mounts, ¬ e.path <+: asDir path) {addr : ℕ} (haddr : ∀ e ∈ m.table, e.addr ≠ addr) (fs : ℕ) :
    Inv { m with mounts := m.mounts ++ [{ addr := addr, path := asDir path, vfs := .given fs }] }
      (Function.update r (asDir path) (some (.given fs))) := by
  obtain ⟨hroot, hother⟩ := h.not_mounted hnone
  have htable : ∀ e ∈ m.table, e.path ≠ asDir path := by
    intro e he
    rcases List.mem_cons.1 he with rfl | he
    · exact (asDir_ne_root hne hroot).symm
    · exact hother e he
  have hmem : ∀ {e}, e ∈ m.root :: (m.mounts ++ [{ addr := addr, path := asDir path, vfs := .given fs }]) ↔
      e ∈ m.table ∨ e = { addr := addr, path := asDir path, vfs := .given fs } := by
    intro e
    rw [← List.cons_append, List.mem_append, List.mem_singleton]
    rfl
  refine ⟨h.fault, ?_, ?_, h.deepest.concat hbelow, ?_, ?_, fun dir fs' => ?_⟩
  · intro e he
    rcases List.mem_append.1 he with he | he
    · exact h.path e he
    · rw [List.mem_singleton.1 he]
      exact ⟨asDir_getLast path, asDir_ne_root hne hroot⟩
  · intro e he
    rcases List.mem_append.1 he with he | he
    · exact h.vfs e he
    · rw [List.mem_singleton.1 he]
      exact nofun
  · change ((m.table ++ [_]).map Mount.addr).Nodup
    rw [List.map_append, List.nodup_append]
    refine ⟨h.addr, List.pairwise_singleton _ _, ?_⟩
    rintro a ha b hb rfl
    obtain ⟨e, he, rfl⟩ := List.mem_map.1 ha
    exact haddr e he (List.mem_singleton.1 hb)
  · change m.cwdmount ∈ (m.table ++ [_]).map Mount.addr
    rw [List.map_append]
    exact List.mem_append_left _ h.cwdmount
  · by_cases hdir : dir = asDir path
    · rw [hdir, Function.update_self]
      constructor
      · rintro ⟨e, he, hpath, rfl⟩
        rcases hmem.1 he with he | rfl
        · exact absurd hpath (htable e he)
        · rfl
      · intro hfs
        exact ⟨_, hmem.2 (Or.inr rfl), rfl, Option.some.inj hfs⟩
    · rw [Function.update_of_ne hdir, ← h.mirrors]
      constructor
      · rintro ⟨e, he, hpath, hvfs⟩
        rcases hmem.1 he with he | rfl
        · exact ⟨e, he, hpath, hvfs⟩
        · exact absurd hpath.symm hdir
      · rintro ⟨e, he, hpath, hvfs⟩
        exact ⟨e, hmem.2 (Or.inl he), hpath, hvfs⟩

theorem Inv.mount (h : Inv m r) {fs : ℕ} {calloc : Option ℕ} (hsafe : Action.Safe m (.mount path fs calloc))
    (hfresh : ∀ e ∈ m.table, calloc ≠ some e.addr) :
    Inv (m.vfsMount path fs calloc).1 (r.next (.mount path fs calloc)) := by
  obtain ⟨hne, hattach⟩ := hsafe
  unfold Machine.vfsMount Reference.next
  dsimp only
  rw [if_neg hne]
  by_cases hroot : path = ['/']
  · rw [hroot, pathIsMountDir_root, asDir_root, h.mirrors_root]
    dsimp only
    cases hvfs : m.root.vfs with
    | given n =>
        have hroot' : m.rootVfs = .given n := hvfs
        rw [if_pos (by nofun), hroot']
        exact h
    | null =>
        have hroot' : m.rootVfs = .null := hvfs
        rw [if_neg (by simp), if_pos rfl, hroot']
        exact h.setRoot (.given fs) m.cwdName
  · cases hexact : m.pathIsMountDir path with
    | some e =>
        obtain ⟨hmem, hpath⟩ := h.exact hroot hexact
        have hr := (h.mirrors (asDir path) e.vfs).1 ⟨e, List.mem_cons_of_mem _ hmem, hpath, rfl⟩
        dsimp only
        rw [if_pos (h.vfs e hmem), hr]
        cases hvfs : e.vfs with
        | null => exact absurd hvfs (h.vfs e hmem)
        | given n => exact h
    | none =>
        obtain ⟨hfits, hbelow⟩ := hattach hexact
        have hr : r (asDir path) = none := by
          by_contra hsome
          obtain ⟨fs', hfs'⟩ := Option.ne_none_iff_exists'.1 hsome
          obtain ⟨e, he, hpath, -⟩ := (h.mirrors _ _).2 hfs'
          rcases List.mem_cons.1 he with rfl | he
          · exact asDir_ne_root hne hroot hpath.symm
          · exact (h.not_mounted hexact).2 e he hpath
        rw [hr]
        cases calloc with
        | none => simpa [hroot] using h
        | some addr =>
            simp only [hroot, if_false, if_pos hfits, false_or, Option.isSome_some, if_true]
            exact h.attach hne hexact hbelow (fun e he heq => hfresh e he (congrArg some heq.symm)) fs

theorem mem_eraseP_addr {l : List Mount} (hnodup : (l.map Mount.addr).Nodup) (a : ℕ) (e : Mount) :
    e ∈ l.eraseP (fun e => e.addr = a) ↔ e ∈ l ∧ e.addr ≠ a := by
  induction l with
  | nil => simp
  | cons b l ih =>
      rw [List.map_cons, List.nodup_cons] at hnodup
      by_cases hb : b.addr = a
      · rw [List.eraseP_cons_of_pos (by simpa using hb), List.mem_cons]
        constructor
        · intro he
          refine ⟨Or.inr he, fun heq => hnodup.1 ?_⟩
          rw [hb, ← heq]
          exact List.mem_map_of_mem he
        · rintro ⟨rfl | he, hne⟩
          · exact absurd hb hne
          · exact he
      · rw [List.eraseP_cons_of_neg (by simpa using hb), List.mem_cons, List.mem_cons, ih hnodup.2]
        constructor
        · rintro (rfl | ⟨he, hne⟩)
          · exact ⟨Or.inl rfl, hb⟩
          · exact ⟨Or.inr he, hne⟩
        · rintro ⟨rfl | he, hne⟩
          · exact Or.inl rfl
          · exact Or.inr ⟨he, hne⟩

theorem Inv.detach (h : Inv m r) (hmem : e ∈ m.mounts) {cwdmount : ℕ} {cwdName : Path}
    (hcwd : cwdmount = rootAddr ∨ cwdmount = m.cwdmount ∧ cwdmount ≠ e.addr) {fault : Bool} (hfault : fault = false) :
    Inv { m with
      mounts := m.mounts.eraseP fun x => x.addr = e.addr
      cwdmount := cwdmount
      cwdName := cwdName
      fault := fault } (Function.update r e.path none) := by
  have hsub : List.Sublist (m.mounts.eraseP fun x => x.addr = e.addr) m.mounts := List.eraseP_sublist
  have hnodup := List.nodup_cons.1 (List.map_cons ▸ h.addr)
  have herase : ∀ x, x ∈ m.mounts.eraseP (fun x => x.addr = e.addr) ↔ x ∈ m.mounts ∧ x.addr ≠ e.addr :=
    mem_eraseP_addr hnodup.2 e.addr
  refine ⟨hfault, fun x hx => h.path x (hsub.subset hx), fun x hx => h.vfs x (hsub.subset hx), h.deepest.sublist hsub,
    h.addr.sublist ((hsub.cons_cons m.root).map Mount.addr), ?_, fun dir fs => ?_⟩
  · rcases hcwd with rfl | ⟨hcwd, hne⟩
    · exact List.mem_cons_self ..
    · obtain ⟨x, hx, haddr⟩ := List.mem_map.1 h.cwdmount
      rw [← hcwd] at haddr
      refine List.mem_map.2 ⟨x, ?_, haddr⟩
      rcases List.mem_cons.1 hx with rfl | hx
      · exact List.mem_cons_self ..
      · exact List.mem_cons_of_mem _ ((herase x).2 ⟨hx, haddr ▸ hne⟩)
  · by_cases hdir : dir = e.path
    · rw [hdir, Function.update_self]
      refine iff_of_false ?_ nofun
      rintro ⟨x, hx, hpath, -⟩
      rcases List.mem_cons.1 hx with rfl | hx
      · exact (h.path e hmem).2 hpath.symm
      · obtain ⟨hx, hne⟩ := (herase x).1 hx
        exact hne (congrArg Mount.addr (h.deepest.unique hx hmem hpath))
    · rw [Function.update_of_ne hdir, ← h.mirrors]
      constructor
      · rintro ⟨x, hx, hpath, hvfs⟩
        rcases List.mem_cons.1 hx with rfl | hx
        · exact ⟨m.root, List.mem_cons_self .., hpath, hvfs⟩
        · exact ⟨x, List.mem_cons_of_mem _ ((herase x).1 hx).1, hpath, hvfs⟩
      · rintro ⟨x, hx, hpath, hvfs⟩
        rcases List.mem_cons.1 hx with rfl | hx
        · exact ⟨_, List.mem_cons_self .., hpath, hvfs⟩
        · refine ⟨x, List.mem_cons_of_mem _ ((herase x).2 ⟨hx, fun haddr => hdir ?_⟩), hpath, hvfs⟩
          rw [← hpath, List.inj_on_of_nodup_map hnodup.2 hx hmem haddr]

theorem Inv.unmount (h : Inv m r) (hsafe : Action.Safe m (.unmount path)) :
    Inv (m.vfsUnmount path) (r.next (.unmount path)) := by
  obtain ⟨habs, hmounted⟩ := hsafe
  unfold Machine.vfsUnmount Reference.next
  dsimp only
  by_cases hroot : path = ['/']
  · rw [if_pos hroot, if_pos hroot, hroot]
    exact h.setRoot .null _
  · obtain ⟨e, hexact⟩ := Option.isSome_iff_exists.1 hmounted
    obtain ⟨hmem, hpath⟩ := h.exact hroot hexact
    have hget : m.getMount path = e.addr := by rw [Machine.getMount, if_neg (not_not_intro habs), hexact]
    have hallocated : (m.mounts.all fun x => x.addr ≠ e.addr) = false := by
      rw [List.all_eq_false]
      exact ⟨e, hmem, by simp⟩
    rw [if_neg hroot, if_neg hroot, hget, ← hpath]
    split
    case isTrue => exact h.detach hmem (Or.inl rfl) (by rw [h.fault, hallocated]; rfl)
    case isFalse hcwd => exact h.detach hmem (Or.inr ⟨rfl, fun heq => hcwd heq.symm⟩) (by rw [h.fault, hallocated]; rfl)

theorem Inv.getMount_mem (h : Inv m r) (path : Path) : m.getMount path ∈ m.table.map Mount.addr := by
  by_cases habs : path.head? = some '/'
  · obtain ⟨e, he, haddr⟩ := h.longest habs
    rw [haddr]
    exact List.mem_map_of_mem he.mem
  · rw [Machine.getMount, if_pos habs]
    exact h.cwdmount

theorem Inv.chdir (h : Inv m r) (path : Path) (ok realloc : Bool) : Inv (m.vfsChdir path ok realloc) r := by
  unfold Machine.vfsChdir
  dsimp only
  split
  · split
    · exact ⟨h.fault, h.path, h.vfs, h.deepest, h.addr, List.mem_cons_self .., h.mirrors⟩
    · exact ⟨h.fault, h.path, h.vfs, h.deepest, h.addr, h.getMount_mem _, h.mirrors⟩
  · exact h

theorem Inv.step (h : Inv m r) (a : Action) (hsafe : a.Safe m) (hstep : step m a = some m') : Inv m' (r.next a) := by
  cases a with
  | mount path fs calloc =>
      simp only [Vfs.step] at hstep
      split at hstep
      case isTrue hfresh =>
        cases hstep
        exact h.mount hsafe hfresh
      case isFalse => cases hstep
  | unmount path =>
      cases hstep
      exact h.unmount hsafe
  | chdir path ok realloc =>
      cases hstep
      exact h.chdir path ok realloc

theorem Inv.start : Inv {} Reference.start := by
  refine ⟨rfl, nofun, nofun, List.Pairwise.nil, List.pairwise_singleton _ _, List.mem_cons_self .., fun dir fs => ?_⟩
  unfold Reference.start
  constructor
  · rintro ⟨e, he, rfl, rfl⟩
    cases List.mem_singleton.1 he
    rfl
  · intro hfs
    split at hfs
    case isTrue hdir =>
      cases hfs
      exact ⟨_, List.mem_cons_self .., hdir.symm, rfl⟩
    case isFalse => cases hfs

/-- In every run whose steps are safe the lookups are right, and the table is what the calls were for. -/
theorem resolves_of_safe {as : List Action} (hsafe : Along step (fun m a => a.Safe m) {} as)
    (hrun : run step {} as = some m) : Resolves m ∧ Mirrors m (as.foldl Reference.next Reference.start) := by
  have hinv : Inv m (as.foldl Reference.next Reference.start) := run_refines_along (R := Inv)
    (fun _ _ a _ h hs hstep => h.step a hs hstep) as {} Reference.start m Inv.start hsafe hrun
  exact ⟨hinv.resolves, hinv.mirrors⟩

/-- A file system below the root, one above it in the tree, the current directory in the first, which is unmounted. -/
def Example.mounts : List Action :=
  [.mount "/".toList 1 none, .mount "/a/b".toList 2 (some 5), .mount "/a/".toList 3 (some 6),
    .chdir "a/b/c".toList true true, .unmount "/a/b/".toList]

theorem resolves_of_safe_mounts : ∃ m, run step {} Example.mounts = some m ∧ Resolves m ∧
    Mirrors m (Example.mounts.foldl Reference.next Reference.start) := by
  have hsafe : Along step (fun m a => a.Safe m) {} Example.mounts := by decide +kernel
  have hmounts : ∃ m, run step {} Example.mounts = some m := Option.isSome_iff_exists.1 (by decide +kernel)
  obtain ⟨m, hrun⟩ := hmounts
  exact ⟨m, hrun, resolves_of_safe hsafe hrun⟩

/-! ## Runs that break it -/

/-- A file system mounted below one that is mounted already is not found. -/
theorem nested_mount_is_hidden : ∃ m,
    run step {} [.mount "/a".toList 1 (some 5), .mount "/a/b".toList 2 (some 6)] = some m ∧
    m.getMount "/a/b/x".toList = 5 ∧ ¬ Resolves m := by
  refine ⟨_, rfl, by decide +kernel, fun h => ?_⟩
  obtain ⟨e, he, haddr⟩ := h.mount "/a/b/x".toList rfl
  have hlong := he.longest { addr := 6, path := "/a/b/".toList, vfs := .given 2 } (by decide +kernel) (by decide +kernel)
  have hshort : ∀ e ∈ [(⟨0, ['/'], .null⟩ : Mount), ⟨5, "/a/".toList, .given 1⟩, ⟨6, "/a/b/".toList, .given 2⟩],
      5 = e.addr → e.path.length < 5 := by decide +kernel
  exact absurd (hshort e he.mem haddr) (not_lt_of_ge hlong)

/-- A path below a mount is unmounted: the mount is removed. -/
theorem unmount_removes_parent : ∃ m, run step {} [.mount "/a".toList 1 (some 5), .unmount "/a/x".toList] = some m ∧
    m.mounts = [] ∧ ¬ Mirrors m ([.mount "/a".toList 1 (some 5), .unmount "/a/x".toList].foldl Reference.next
      Reference.start) := by
  refine ⟨_, rfl, rfl, fun h => ?_⟩
  obtain ⟨e, he, hpath, -⟩ := (h "/a/".toList (.given 1)).2 (by decide +kernel)
  rw [List.mem_singleton.1 he] at hpath
  exact absurd hpath (by decide +kernel)

/-- A path that is not mounted is unmounted: the root entry is freed. -/
theorem unmount_frees_root : ∃ m, run step {} [.unmount "/a".toList] = some m ∧ m.fault = true ∧ ¬ Resolves m :=
  ⟨_, rfl, rfl, fun h => absurd h.fault (by decide +kernel)⟩

/-! ## The name a file system is given -/

theorem getFilename_append (habs : path.head? = some '/') (hcovers : e.path <+: asDir path) :
    e.path.dropLast ++ getFilename e path = path := by
  have hlen : e.path.length - 1 ≤ path.length := by
    have hle := hcovers.length_le
    rw [asDir] at hle
    split at hle
    · omega
    · rw [List.length_append, List.length_singleton] at hle
      omega
  have htake : e.path.dropLast = path.take (e.path.length - 1) := by
    have hprefix : e.path = (asDir path).take e.path.length := List.prefix_iff_eq_take.1 hcovers
    rw [List.dropLast_eq_take, hprefix, List.length_take, List.take_take, asDir]
    split
    case isTrue =>
      congr 1
      have hle := hcovers.length_le
      omega
    case isFalse =>
      rw [List.take_append_of_le_length (by omega)]
      congr 1
      rw [List.length_append, List.length_singleton]
      omega
  have hname : getFilename e path = path.drop (e.path.length - 1) := by
    rw [getFilename, if_pos habs]
    split
    case isTrue h => rw [h]
    case isFalse => rfl
  rw [htake, hname, List.take_append_drop]

end Grbl.Vfs
