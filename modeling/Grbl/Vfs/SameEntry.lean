import Grbl.Vfs.Littlefs

/-!
# When relative and absolute paths name the same entry

* `getMount_spec`, `mountOf_spec` : the entry found for an absolute path is in the table, and its directory is a prefix;
* `Table`, `Table.step` : the invariant of the mounts and the current directory; `Established.current` : what the driver was given;
* `exists_names`, `getFilename_render`, `exists_dirName` : a mount in front of the path of a directory, and what `fs_chdir` is given;
* `Target`, `byCwd_iff`, `byRoot_iff` : where a relative path leads, and the condition for it;
* `fsOpen_iff` .. `fsChmod_iff` : what the operations depend on; `Target.frees_iff` : when a path is freed; `same_iff` : every request;
* `opendir_from_the_root` : a request that is not the same.
-/

namespace Grbl.Vfs
open Lib

variable {m m' : Machine} {path : Path} {e : Mount}

/-! ## The table -/

/-- Mounts end with a separator, are at different addresses, and the one of the current directory is in front of it. -/
structure Table (m : Machine) : Prop where
  path : ∀ e ∈ m.mounts, e.path.getLast? = some '/' ∧ e.path ≠ ['/']
  addr : (m.table.map Mount.addr).Nodup
  current : ∃ e ∈ m.table, e.addr = m.cwdmount ∧ e.path <+: asDir m.cwdName
  cwd : ∃ d : Dir, m.cwdName = render d.1

theorem Table.last (h : Table m) (he : e ∈ m.table) : e.path.getLast? = some '/' := by
  rcases List.mem_cons.1 he with rfl | he
  · rfl
  · exact (h.path e he).1

/-- `get_mount` finds a mount in front of an absolute path. -/
theorem Table.getMount_spec (h : Table m) (habs : path.head? = some '/') :
    ∃ e ∈ m.table, e.addr = m.getMount path ∧ e.path <+: asDir path := by
  rw [Machine.getMount, if_neg (not_not_intro habs)]
  cases hexact : m.pathIsMountDir path with
  | some e =>
      unfold Machine.pathIsMountDir at hexact
      split at hexact
      · rename_i hroot
        cases hexact
        exact ⟨m.root, List.mem_cons_self, rfl, root_prefix habs⟩
      · have he := List.mem_of_find?_eq_some hexact
        have hdir := (is_mount_dir_iff (h.path e he).1 path).1 (by simpa using List.find?_some hexact)
        exact ⟨e, List.mem_cons_of_mem _ he, rfl, hdir ▸ List.prefix_rfl⟩
  | none =>
      dsimp only
      cases hfirst : m.mounts.find? fun e => e.path <+: path with
      | some e =>
          have hfront : e.path <+: path := by simpa using List.find?_some hfirst
          refine ⟨e, List.mem_cons_of_mem _ (List.mem_of_find?_eq_some hfirst), rfl, hfront.trans ?_⟩
          unfold asDir
          split
          · exact List.prefix_rfl
          · exact List.prefix_append _ _
      | none => exact ⟨m.root, List.mem_cons_self, rfl, root_prefix habs⟩

theorem mountAt_eq (haddr : (m.table.map Mount.addr).Nodup) (he : e ∈ m.table) : m.mountAt e.addr = e := by
  unfold Machine.mountAt
  cases hfind : m.table.find? (·.addr = e.addr) with
  | none => exact absurd (decide_eq_true rfl) (List.find?_eq_none.1 hfind e he)
  | some e' =>
      have haddr' : e'.addr = e.addr := by simpa using List.find?_some hfind
      exact List.inj_on_of_nodup_map haddr (List.mem_of_find?_eq_some hfind) he haddr'

theorem Table.mountOf_spec (h : Table m) (habs : path.head? = some '/') :
    m.mountOf path ∈ m.table ∧ (m.mountOf path).addr = m.getMount path ∧ (m.mountOf path).path <+: asDir path := by
  obtain ⟨e, he, haddr, hfront⟩ := h.getMount_spec habs
  rw [Machine.mountOf, ← haddr, mountAt_eq h.addr he]
  exact ⟨he, rfl, hfront⟩

theorem Table.mountAt_cwdmount (h : Table m) : m.mountAt m.cwdmount ∈ m.table ∧ (m.mountAt m.cwdmount).addr = m.cwdmount ∧
    (m.mountAt m.cwdmount).path <+: asDir m.cwdName := by
  obtain ⟨e, he, haddr, hfront⟩ := h.current
  rw [← haddr, mountAt_eq h.addr he]
  exact ⟨he, rfl, hfront⟩

theorem root_prefix_root : (['/'] : Path) <+: asDir ['/'] := List.prefix_rfl

/-! ## Calls -/

theorem Table.start : Table {} :=
  ⟨fun _ he => absurd he List.not_mem_nil, List.nodup_singleton _, ⟨_, List.mem_cons_self, rfl, root_prefix_root⟩, exists_root⟩

/-- What `vfs_mount` can do. -/
theorem vfsMount_cases (m : Machine) (path : Path) (fs : ℕ) (calloc : Option ℕ) :
    (m.vfsMount path fs calloc).1 = m ∨ (m.vfsMount path fs calloc).1 = { m with fault := true } ∨
      (m.vfsMount path fs calloc).1 = { m with rootVfs := .given fs } ∨
      path ≠ [] ∧ path ≠ ['/'] ∧ ∃ addr, calloc = some addr ∧
        (m.vfsMount path fs calloc).1 = { m with mounts := m.mounts ++ [{ addr := addr, path := asDir path, vfs := .given fs }] } := by
  unfold Machine.vfsMount
  dsimp only
  by_cases hnil : path = []
  · rw [if_pos hnil]
    exact .inr (.inl rfl)
  by_cases hroot : path = ['/']
  · rw [if_neg hnil, if_pos hroot]
    split
    · split
      · exact .inl rfl
      · exact .inr (.inr (.inl rfl))
    · exact .inr (.inr (.inl rfl))
  rw [if_neg hnil, if_neg hroot]
  cases calloc with
  | none =>
      split
      · split <;> exact .inl rfl
      · exact .inl rfl
  | some addr =>
      have hattach : ∀ r : Machine × Bool, (r = if (asDir path).length < vfsMountPathLen then
            ({ m with mounts := m.mounts ++ [{ addr := addr, path := asDir path, vfs := .given fs }] }, true)
          else ({ m with fault := true }, true)) → r.1 = m ∨ r.1 = { m with fault := true } ∨ r.1 = { m with rootVfs := .given fs } ∨
          path ≠ [] ∧ path ≠ ['/'] ∧ ∃ addr', some addr = some addr' ∧
            r.1 = { m with mounts := m.mounts ++ [{ addr := addr', path := asDir path, vfs := .given fs }] } := by
        rintro r rfl
        split
        · exact .inr (.inr (.inr ⟨hnil, hroot, addr, rfl, rfl⟩))
        · exact .inr (.inl rfl)
      split
      · split
        · exact .inl rfl
        · exact hattach _ rfl
      · exact hattach _ rfl

/-- What `vfs_unmount` can do. -/
theorem vfsUnmount_cases (m : Machine) (path : Path) :
    (m.vfsUnmount path = { m with rootVfs := .null, cwdName := if m.cwdmount = rootAddr then ['/'] else m.cwdName }) ∨
      ∃ addr, (m.vfsUnmount path).fault = (m.fault || m.mounts.all fun e => e.addr ≠ addr) ∧
        (m.vfsUnmount path).rootVfs = m.rootVfs ∧ (m.vfsUnmount path).mounts = (m.mounts.eraseP fun e => e.addr = addr) ∧
        (addr = m.cwdmount ∧ (m.vfsUnmount path).cwdmount = rootAddr ∧ (m.vfsUnmount path).cwdName = ['/'] ∨
          addr ≠ m.cwdmount ∧ (m.vfsUnmount path).cwdmount = m.cwdmount ∧ (m.vfsUnmount path).cwdName = m.cwdName) := by
  unfold Machine.vfsUnmount
  dsimp only
  split
  · exact .inl rfl
  · refine .inr ⟨m.getMount path, ?_⟩
    split
    · rename_i h
      exact ⟨rfl, rfl, rfl, .inl ⟨h, rfl, rfl⟩⟩
    · rename_i h
      exact ⟨rfl, rfl, rfl, .inr ⟨h, rfl, rfl⟩⟩

theorem fault_of_step {a : Action} (hstep : step m a = some m') (h : m'.fault = false) : m.fault = false := by
  cases a with
  | mount path fs calloc =>
      simp only [step] at hstep
      split at hstep
      · cases hstep
        rcases vfsMount_cases m path fs calloc with heq | heq | heq | ⟨-, -, addr, -, heq⟩ <;> rw [heq] at h
        · exact h
        · cases h
        · exact h
        · exact h
      · cases hstep
  | unmount path =>
      cases hstep
      rcases vfsUnmount_cases m path with heq | ⟨addr, heq, -⟩ <;> rw [heq] at h
      · exact h
      · exact (Bool.or_eq_false_iff.1 h).1
  | chdir path ok realloc =>
      cases hstep
      unfold Machine.vfsChdir at h
      dsimp only at h
      split_ifs at h <;> exact h

theorem Table.mount (h : Table m) {path : Path} {fs : ℕ} {calloc : Option ℕ} (hfresh : ∀ e ∈ m.table, calloc ≠ some e.addr)
    (hfault : (m.vfsMount path fs calloc).1.fault = false) : Table (m.vfsMount path fs calloc).1 := by
  obtain ⟨e, he, haddr, hfront⟩ := h.current
  rcases vfsMount_cases m path fs calloc with heq | heq | heq | ⟨hnil, hroot, addr, hcalloc, heq⟩ <;> rw [heq] at hfault ⊢
  · exact h
  · cases hfault
  · refine ⟨h.path, h.addr, ?_, h.cwd⟩
    rcases List.mem_cons.1 he with rfl | he
    · exact ⟨_, List.mem_cons_self, haddr, hfront⟩
    · exact ⟨e, List.mem_cons_of_mem _ he, haddr, hfront⟩
  · have htable : ∀ x, x ∈ m.table → x ∈ m.table ++ [{ addr := addr, path := asDir path, vfs := .given fs }] :=
      fun x hx => List.mem_append_left _ hx
    refine ⟨fun x hx => ?_, ?_, ⟨e, htable e he, haddr, hfront⟩, h.cwd⟩
    · rcases List.mem_append.1 hx with hx | hx
      · exact h.path x hx
      · rw [List.mem_singleton.1 hx]
        exact ⟨asDir_getLast path, asDir_ne_root hnil hroot⟩
    · change ((m.table ++ [({ addr := addr, path := asDir path, vfs := .given fs } : Mount)]).map Mount.addr).Nodup
      rw [List.map_append, List.nodup_append]
      refine ⟨h.addr, List.nodup_singleton _, ?_⟩
      rintro a ha b hb rfl
      obtain ⟨x, hx, rfl⟩ := List.mem_map.1 ha
      exact hfresh x hx (by rw [hcalloc, List.mem_singleton.1 hb])

theorem Table.unmount (h : Table m) (path : Path) : Table (m.vfsUnmount path) := by
  obtain ⟨e, he, haddr, hfront⟩ := h.current
  rcases vfsUnmount_cases m path with heq | ⟨addr, -, hroot, hmounts, hcwd⟩
  · rw [heq]
    refine ⟨h.path, h.addr, ?_, ?_⟩
    · dsimp only
      split
      · rename_i hcwd
        exact ⟨_, List.mem_cons_self, hcwd.symm, root_prefix_root⟩
      · rename_i hcwd
        rcases List.mem_cons.1 he with rfl | he
        · exact absurd haddr.symm hcwd
        · exact ⟨e, List.mem_cons_of_mem _ he, haddr, hfront⟩
    · dsimp only
      split
      · exact exists_root
      · exact h.cwd
  · have hsub : (m.vfsUnmount path).mounts.Sublist m.mounts := hmounts ▸ List.eraseP_sublist
    have hroot' : (m.vfsUnmount path).root = m.root := by
      rw [Machine.root, Machine.root, hroot]
    have htable : (m.vfsUnmount path).table.Sublist m.table := by
      rw [Machine.table, Machine.table, hroot']
      exact hsub.cons_cons _
    have hnodup := List.nodup_cons.1 (List.map_cons ▸ h.addr)
    refine ⟨fun x hx => h.path x (hsub.subset hx), h.addr.sublist (htable.map _), ?_, ?_⟩
    · rcases hcwd with ⟨-, hmount, hname⟩ | ⟨hne, hmount, hname⟩
      · exact ⟨_, List.mem_cons_self, hmount.symm, hname ▸ root_prefix_root⟩
      · rw [hmount, hname]
        refine ⟨e, ?_, haddr, hfront⟩
        rw [Machine.table, hroot']
        rcases List.mem_cons.1 he with rfl | he
        · exact List.mem_cons_self
        · rw [hmounts]
          refine List.mem_cons_of_mem _ ((mem_eraseP_addr hnodup.2 addr e).2 ⟨he, ?_⟩)
          rw [haddr]
          exact hne.symm
    · rcases hcwd with ⟨-, -, hname⟩ | ⟨-, -, hname⟩
      · rw [hname]
        exact exists_root
      · rw [hname]
        exact h.cwd

theorem Table.chdir (h : Table m) (path : Path) (ok realloc : Bool) : Table (m.vfsChdir path ok realloc) := by
  obtain ⟨d, hd⟩ := h.cwd
  have hpath : parsePath m.cwdName path = render (resolve d.1 path) := hd ▸ parsePath_eq d.2 path
  unfold Machine.vfsChdir
  dsimp only
  split_ifs
  · exact ⟨h.path, h.addr, ⟨_, List.mem_cons_self, rfl, root_prefix_root⟩, exists_root⟩
  · exact ⟨h.path, h.addr, h.getMount_spec (hpath ▸ render_head _), ⟨_, isName_resolve d.2 path⟩, hpath⟩
  · exact h

theorem Table.step {a : Action} (h : Table m) (hstep : step m a = some m') (hfault : m'.fault = false) : Table m' := by
  cases a with
  | mount path fs calloc =>
      simp only [Vfs.step] at hstep
      split at hstep
      · rename_i hfresh
        cases hstep
        exact h.mount hfresh hfault
      · cases hstep
  | unmount path =>
      cases hstep
      exact h.unmount path
  | chdir path ok realloc =>
      cases hstep
      exact h.chdir path ok realloc

theorem Table.run {as : List Action} (hrun : run Vfs.step {} as = some m) : m.fault = false → Table m :=
  run_invariant (I := fun m => m.fault = false → Table m)
    (fun _ _ _ hs hstep hfault => (hs (fault_of_step hstep hfault)).step hstep hfault) as _ _ (fun _ => Table.start) hrun

/-! ## Names of mounts -/

theorem flatMap_separators (names : List Path) : names.flatMap ('/' :: ·) ++ ['/'] = '/' :: names.flatMap (· ++ ['/']) := by
  induction names with
  | nil => rfl
  | cons n names ih =>
      rw [List.flatMap_cons, List.flatMap_cons, List.append_assoc, ih, List.cons_append, List.append_assoc, List.singleton_append]

theorem asDir_render {names : List Path} (h : ∀ n ∈ names, IsName n) : asDir (render names) = '/' :: names.flatMap (· ++ ['/']) := by
  by_cases hne : names = []
  · rw [hne]
    rfl
  · have htrailing := (render_wellFormed h).trailing (render_ne_root hne h)
    rw [asDir, if_neg htrailing, render_of_ne_nil hne, flatMap_separators]

theorem asDir_render_of_ne_nil {names : List Path} (h : ∀ n ∈ names, IsName n) (hne : names ≠ []) :
    asDir (render names) = render names ++ ['/'] := by
  rw [asDir, if_neg ((render_wellFormed h).trailing (render_ne_root hne h))]

/-- What is in front of names that are followed by a separator each, and ends with one, is some of them. -/
theorem prefix_flatMap {names : List Path} (h : ∀ n ∈ names, '/' ∉ n) {q : Path} (hq : q <+: names.flatMap (· ++ ['/']))
    (hlast : q = [] ∨ q.getLast? = some '/') : ∃ M R, names = M ++ R ∧ q = M.flatMap (· ++ ['/']) := by
  induction names generalizing q with
  | nil => exact ⟨[], [], rfl, List.prefix_nil.1 hq⟩
  | cons n names ih =>
      rcases hlast with rfl | hlast
      · exact ⟨[], _, rfl, rfl⟩
      rw [List.flatMap_cons] at hq
      rcases List.prefix_or_prefix_of_prefix hq (List.prefix_append (n ++ ['/']) _) with hshort | ⟨q', rfl⟩
      · rcases List.prefix_concat_iff.1 hshort with rfl | hshort
        · exact ⟨[n], names, rfl, (List.flatMap_singleton _ _).symm⟩
        · exact absurd (hshort.subset (List.mem_of_getLast? hlast)) (h n List.mem_cons_self)
      · have hq' : q' <+: names.flatMap (· ++ ['/']) := (List.prefix_append_right_inj _).1 hq
        have hlast' : q' = [] ∨ q'.getLast? = some '/' := by
          by_cases hnil : q' = []
          · exact .inl hnil
          · rw [List.getLast?_append_of_ne_nil _ hnil] at hlast
            exact .inr hlast
        obtain ⟨M, R, rfl, rfl⟩ := ih (fun x hx => h x (List.mem_cons_of_mem _ hx)) hq' hlast'
        exact ⟨n :: M, R, rfl, by rw [List.flatMap_cons]⟩

theorem exists_names {A : List Path} (hA : ∀ n ∈ A, IsName n) {q : Path} (hq : q <+: asDir (render A)) (hlast : q.getLast? = some '/') :
    ∃ M R, A = M ++ R ∧ q = asDir (render M) := by
  rw [asDir_render hA] at hq
  cases q with
  | nil => cases hlast
  | cons c q =>
      obtain ⟨rfl, hq'⟩ := List.cons_prefix_cons.1 hq
      have hlast' : q = [] ∨ q.getLast? = some '/' := by
        by_cases hnil : q = []
        · exact .inl hnil
        · rw [List.getLast?_cons_of_ne_nil hnil] at hlast
          exact .inr hlast
      obtain ⟨M, R, rfl, rfl⟩ := prefix_flatMap (fun n hn => (hA n hn).2.1) hq' hlast'
      exact ⟨M, R, rfl, (asDir_render fun n hn => hA n (List.mem_append_left _ hn)).symm⟩

theorem intercalate_concat_nil (names : List Path) : ['/'].intercalate (names ++ [[]]) = names.flatMap (· ++ ['/']) := by
  induction names with
  | nil => rfl
  | cons n names ih =>
      rw [List.flatMap_cons, List.cons_append]
      cases hnames : names ++ [[]] with
      | nil => exact absurd hnames (List.append_ne_nil_of_right_ne_nil _ (List.cons_ne_nil _ _))
      | cons n' ns => rw [List.intercalate_cons_cons, ← hnames, ih, List.append_assoc]

theorem resolve_asDir {names : List Path} (h : ∀ n ∈ names, IsName n) : resolve [] (asDir (render names)) = names := by
  have hsplit : (names.flatMap (· ++ ['/'])).splitOn '/' = names ++ [[]] := by
    rw [← intercalate_concat_nil]
    refine List.splitOn_intercalate '/' (fun n hn => ?_) (List.append_ne_nil_of_right_ne_nil _ (List.cons_ne_nil _ _))
    rcases List.mem_append.1 hn with hn | hn
    · exact (h n hn).2.1
    · rw [List.mem_singleton.1 hn]
      exact List.not_mem_nil
  have hempty : ∀ names, walkElement names [] = names := fun names => by rw [walkElement, if_neg (by decide), if_pos (.inl rfl)]
  rw [asDir_render h, resolve, ite_self, List.splitOn_cons_eq_if_modifyHead, if_pos (beq_self_eq_true _), hsplit, List.foldl_cons,
    hempty, List.foldl_append, foldl_walkElement_isName h, List.nil_append]
  exact hempty names

theorem getFilename_render {M R : List Path} (h : ∀ n ∈ M ++ R, IsName n) (hpath : e.path = asDir (render M)) :
    getFilename e (render (M ++ R)) = if M ≠ [] ∧ R = [] then [] else render R := by
  have hM : ∀ n ∈ M, IsName n := fun n hn => h n (List.mem_append_left _ hn)
  have hfront : e.path <+: asDir (render (M ++ R)) := by
    rw [hpath, asDir_render hM, asDir_render h, List.flatMap_append, ← List.cons_append]
    exact List.prefix_append _ _
  have happend := getFilename_append (render_head (M ++ R)) hfront
  by_cases hM0 : M = []
  · rw [if_neg fun hn => hn.1 hM0]
    rw [hpath, hM0] at happend
    rw [hM0]
    exact happend
  · rw [hpath, asDir_render_of_ne_nil hM hM0, List.dropLast_concat, render_of_ne_nil hM0,
      render_of_ne_nil (List.append_ne_nil_of_left_ne_nil hM0 _), List.flatMap_append] at happend
    rw [render_of_ne_nil (List.append_ne_nil_of_left_ne_nil hM0 _), List.flatMap_append, List.append_cancel_left happend]
    split
    · rename_i hR
      rw [hR.2]
      rfl
    · rename_i hR
      rw [render_of_ne_nil fun h0 => hR ⟨hM0, h0⟩]

/-! ## The current directory -/

theorem getFilename_congr {e e' : Mount} (h : e.path = e'.path) (name : Path) : getFilename e name = getFilename e' name := by
  rw [getFilename, getFilename, h]

theorem mountAt_path (h : Table m) (h' : Table m') (hcwd : m'.cwdmount = m.cwdmount)
    (hkeep : ∀ e ∈ m.mounts, e.addr = m.cwdmount → e ∈ m'.mounts) :
    (m'.mountAt m'.cwdmount).path = (m.mountAt m.cwdmount).path := by
  obtain ⟨e, he, haddr, -⟩ := h.current
  rw [hcwd, ← haddr, mountAt_eq h.addr he]
  rcases List.mem_cons.1 he with rfl | he
  · have hroot : (m'.mountAt m'.root.addr).path = m'.root.path := congrArg Mount.path (mountAt_eq h'.addr List.mem_cons_self)
    exact hroot
  · exact congrArg Mount.path (mountAt_eq h'.addr (List.mem_cons_of_mem _ (hkeep e he haddr)))

theorem vfsChdir_ok (m : Machine) (path : Path) : m.vfsChdir path true true =
    { m with
      cwdName := parsePath m.cwdName path
      cwdLen := max (parsePath m.cwdName path).length m.cwdLen
      cwdmount := m.getMount (parsePath m.cwdName path) } := by
  unfold Machine.vfsChdir
  dsimp only
  rw [if_pos rfl, if_neg fun h => nomatch h.2]

theorem Established.spec {lfs : Fs} {cwd : Path} (h : Established lfs m cwd) :
    m.fault = false → Table m ∧ cwd = orRoot (getFilename (m.mountAt m.cwdmount) m.cwdName) := by
  induction h with
  | @chdir as m path hrun hlfs =>
      intro hfault
      rw [vfsChdir_ok] at hfault
      refine ⟨(Table.run hrun hfault).chdir path true true, ?_⟩
      rw [vfsChdir_ok]
      rfl
  | @mount m m' cwd path fs calloc h hstep ih =>
      intro hfault
      obtain ⟨htable, hcwd⟩ := ih (fault_of_step hstep hfault)
      have htable' := htable.step hstep hfault
      refine ⟨htable', ?_⟩
      simp only [step] at hstep
      split at hstep
      · have heq := vfsMount_cases m path fs calloc
        rw [Option.some.inj hstep] at heq
        have hsame : m'.cwdmount = m.cwdmount ∧ m'.cwdName = m.cwdName ∧ ∀ e ∈ m.mounts, e.addr = m.cwdmount → e ∈ m'.mounts := by
          rcases heq with heq | heq | heq | ⟨-, -, addr, -, heq⟩ <;> rw [heq]
          · exact ⟨rfl, rfl, fun e he _ => he⟩
          · exact ⟨rfl, rfl, fun e he _ => he⟩
          · exact ⟨rfl, rfl, fun e he _ => he⟩
          · exact ⟨rfl, rfl, fun e he _ => List.mem_append_left _ he⟩
        rw [hcwd, hsame.2.1, getFilename_congr (mountAt_path htable htable' hsame.1 hsame.2.2)]
      · cases hstep
  | @unmount m m' cwd path h hstep hsame ih =>
      intro hfault
      obtain ⟨htable, hcwd⟩ := ih (fault_of_step hstep hfault)
      have htable' := htable.step hstep hfault
      refine ⟨htable', ?_⟩
      have hkeep : ∀ e ∈ m.mounts, e.addr = m.cwdmount → e ∈ m'.mounts := by
        intro e he haddr
        cases hstep
        rcases vfsUnmount_cases m path with heq | ⟨addr, -, -, hmounts, hmount⟩
        · rw [heq]
          exact he
        · have hnodup := List.nodup_cons.1 (List.map_cons ▸ htable.addr)
          rw [hmounts]
          refine (mem_eraseP_addr hnodup.2 addr e).2 ⟨he, ?_⟩
          rintro rfl
          rcases hmount with ⟨-, hroot, -⟩ | ⟨hne, -⟩
          · -- the mount of the current directory is the root now, and was not before
            refine hnodup.1 (List.mem_map.2 ⟨e, he, ?_⟩)
            rw [haddr, ← hsame.1, hroot]
            rfl
          · exact hne haddr
      rw [hcwd, hsame.2, getFilename_congr (mountAt_path htable htable' hsame.1 hkeep)]

/-- Where the current directory is: in the directory `M` of its mount, `F` below it. -/
structure Here (m : Machine) (cwd : Path) (M F : List Path) : Prop where
  table : Table m
  isName : ∀ n ∈ M ++ F, IsName n
  cwdName : m.cwdName = render (M ++ F)
  path : (m.mountAt m.cwdmount).path = asDir (render M)
  cwd : cwd = render F

theorem Established.here {lfs : Fs} {cwd : Path} (h : Established lfs m cwd) (hfault : m.fault = false) : ∃ M F, Here m cwd M F := by
  obtain ⟨htable, hcwd⟩ := h.spec hfault
  obtain ⟨⟨A, hA⟩, hd⟩ := htable.cwd
  obtain ⟨hmem, -, hfront⟩ := htable.mountAt_cwdmount
  rw [hd] at hfront
  obtain ⟨M, F, rfl, hpath⟩ := exists_names hA hfront (htable.last hmem)
  refine ⟨M, F, htable, hA, hd, hpath, ?_⟩
  rw [hcwd, hd, getFilename_render hA hpath]
  split
  · rename_i hF
    rw [hF.2]
    rfl
  · refine if_neg fun h0 => ?_
    have hhead := render_head F
    rw [h0] at hhead
    cases hhead

/-- `fs_chdir` is called with the rest of a directory behind its mount, or nothing. -/
theorem exists_dirName {A : List Path} (hA : ∀ n ∈ A, IsName n) (hfront : e.path <+: asDir (render A))
    (hlast : e.path.getLast? = some '/') : ∃ dir, getFilename e (render A) = dirName dir := by
  obtain ⟨M, R, rfl, hpath⟩ := exists_names hA hfront hlast
  rw [getFilename_render hA hpath]
  split
  · exact ⟨none, rfl⟩
  · exact ⟨some ⟨R, fun n hn => hA n (List.mem_append_right _ hn)⟩, rfl⟩

/-! ## A relative path -/

section
variable {cwd p : Path} {M F : List Path}

/-- The mount of the absolute path, and the names up to it and behind it. -/
structure Target (m : Machine) (p : Path) (M F M' R : List Path) : Prop where
  split : resolve (M ++ F) p = M' ++ R
  isName : ∀ n ∈ M' ++ R, IsName n
  absolute : parsePath m.cwdName p = render (M' ++ R)
  mem : m.mountOf (parsePath m.cwdName p) ∈ m.table
  path : (m.mountOf (parsePath m.cwdName p)).path = asDir (render M')

theorem Here.target (h : Here m cwd M F) (p : Path) : ∃ M' R, Target m p M F M' R := by
  have habs : parsePath m.cwdName p = render (resolve (M ++ F) p) := h.cwdName ▸ parsePath_eq h.isName p
  have hnames := isName_resolve h.isName p
  obtain ⟨hmem, -, hfront⟩ := h.table.mountOf_spec (habs ▸ render_head _)
  have hfront' := hfront
  rw [habs] at hfront'
  obtain ⟨M', R, hsplit, hpath⟩ := exists_names hnames hfront' (habs ▸ h.table.last hmem)
  refine ⟨M', R, hsplit, hsplit ▸ hnames, hsplit ▸ habs, hmem, ?_⟩
  rw [habs]
  exact hpath

variable {M' R : List Path}

theorem Target.names (t : Target m p M F M' R) : (m.mountOf (parsePath m.cwdName p)).names = M' := by
  rw [Mount.names, t.path, resolve_asDir fun n hn => t.isName n (List.mem_append_left _ hn)]

theorem Target.resolve (t : Target m p M F M' R) : Lib.resolve [] (parsePath m.cwdName p) = M' ++ R := by
  rw [t.absolute, resolve_render t.isName]

theorem Target.filename (t : Target m p M F M' R) :
    getFilename (m.mountOf (parsePath m.cwdName p)) (parsePath m.cwdName p) = if M' ≠ [] ∧ R = [] then [] else render R := by
  rw [← getFilename_render t.isName t.path, t.absolute]

theorem Target.same (h : Here m cwd M F) (t : Target m p M F M' R) (haddr : (m.mountOf (parsePath m.cwdName p)).addr = m.cwdmount) :
    M' = M := by
  have hmount := mountAt_eq h.table.addr t.mem
  have hpath : asDir (render M') = asDir (render M) := by
    rw [← t.path, ← h.path, ← haddr, hmount]
  have hM' : ∀ n ∈ M', IsName n := fun n hn => t.isName n (List.mem_append_left _ hn)
  rw [← resolve_asDir hM', hpath, resolve_asDir fun n hn => h.isName n (List.mem_append_left _ hn)]

theorem Here.resolve_cwd (h : Here m cwd M F) : Lib.resolve [] cwd = F := by
  rw [h.cwd, resolve_render fun n hn => h.isName n (List.mem_append_right _ hn)]

theorem Here.resolve_parsePath (h : Here m cwd M F) (p : Path) : Lib.resolve [] (parsePath cwd p) = Lib.resolve F p := by
  have hF : ∀ n ∈ F, IsName n := fun n hn => h.isName n (List.mem_append_right _ hn)
  rw [h.cwd, parsePath_eq hF, resolve_render (isName_resolve hF p)]

theorem Target.resolve_filename (t : Target m p M F M' R) (start : List Path) :
    Lib.resolve start (getFilename (m.mountOf (parsePath m.cwdName p)) (parsePath m.cwdName p)) =
      if M' ≠ [] ∧ R = [] then start else R := by
  rw [t.filename]
  split
  · rfl
  · exact resolve_render (fun n hn => t.isName n (List.mem_append_right _ hn)) start

theorem Target.toDir_iff (t : Target m p M F M' R) :
    (Lib.resolve [] (parsePath m.cwdName p) = (m.mountOf (parsePath m.cwdName p)).names ∧
      (m.mountOf (parsePath m.cwdName p)).names ≠ []) ↔ (M' ≠ [] ∧ R = []) := by
  rw [t.names, t.resolve, List.append_right_eq_self, and_comm]

/-- Below its mount a relative path adds the same names for the driver, as far as it does not climb out of it. -/
theorem Target.rest_iff (hp : p.head? ≠ some '/') (t : Target m p M F M R) :
    Lib.resolve F p = R ↔ climbs p ≤ F.length ∨ M = [] := by
  have hsplit := t.split
  rw [resolve_relative hp, List.length_append] at hsplit
  rw [resolve_relative hp]
  constructor
  · intro hrest
    rw [or_iff_not_imp_right]
    intro hM
    by_contra hclimb
    have hlen := congrArg List.length hsplit
    have hpos := List.length_pos_iff.2 hM
    rw [← hrest] at hlen
    simp only [List.length_append, List.length_take] at hlen
    omega
  · rintro (hclimb | rfl)
    · rw [List.take_append, show M.length + F.length - climbs p - M.length = F.length - climbs p by omega,
        List.take_of_length_le (show M.length ≤ M.length + F.length - climbs p by omega), List.append_assoc] at hsplit
      exact List.append_cancel_left hsplit
    · rw [List.nil_append, List.nil_append, List.length_nil, Nat.zero_add] at hsplit
      exact hsplit

theorem Target.rest_root_iff (hp : p.head? ≠ some '/') (t : Target m p M F M R) :
    Lib.resolve [] p = R ↔ climbs p = F.length ∨ M = [] ∧ F.length ≤ climbs p := by
  have hsplit := t.split
  rw [resolve_relative hp, List.length_append] at hsplit
  have hlen := congrArg List.length hsplit
  simp only [List.length_append, List.length_take] at hlen
  constructor
  · intro hrest
    have hrest' := congrArg List.length hrest
    by_cases hM : M = []
    · have hM' := congrArg List.length hM
      rw [List.length_nil] at hM'
      exact .inr ⟨hM, by omega⟩
    · have hpos := List.length_pos_iff.2 hM
      exact .inl (by omega)
  · rintro (hclimb | ⟨rfl, hclimb⟩)
    · rw [hclimb, Nat.add_sub_cancel, List.take_left'  rfl] at hsplit
      exact List.append_cancel_left hsplit
    · rw [List.length_nil, Nat.zero_add, Nat.sub_eq_zero_of_le hclimb, List.take_zero, List.nil_append, List.nil_append] at hsplit
      exact hsplit

/-- Through `get_path`. -/
theorem byCwd_iff {lfs : Fs} (h : Here m cwd M F) (hlfs : (m.mountAt m.cwdmount).vfs = lfs) (hp : p.head? ≠ some '/') :
    ByCwd lfs m cwd p ↔ (m.mountOf (parsePath m.cwdName p)).vfs = lfs ∧
      resolve [] (parsePath cwd p) =
        resolve [] (parsePath cwd (getFilename (m.mountOf (parsePath m.cwdName p)) (parsePath m.cwdName p))) := by
  obtain ⟨M', R, t⟩ := h.target p
  rw [h.resolve_parsePath, h.resolve_parsePath, t.resolve_filename]
  unfold ByCwd
  simp only [t.toDir_iff, h.resolve_cwd]
  by_cases haddr : (m.mountOf (parsePath m.cwdName p)).addr = m.cwdmount
  · have hvfs : (m.mountOf (parsePath m.cwdName p)).vfs = lfs := by
      rw [← hlfs, ← haddr, mountAt_eq h.table.addr t.mem]
    obtain rfl := t.same h haddr
    rw [if_pos haddr, and_iff_right hvfs, t.names]
    split
    · rfl
    · exact (t.rest_iff hp).symm
  · rw [if_neg haddr, t.names, t.resolve, List.drop_left]

theorem byRoot_iff {lfs : Fs} (h : Here m cwd M F) (hlfs : (m.mountAt m.cwdmount).vfs = lfs) (hp : p.head? ≠ some '/') :
    ByRoot lfs m cwd p ↔ (m.mountOf (parsePath m.cwdName p)).vfs = lfs ∧
      resolve [] p = resolve [] (getFilename (m.mountOf (parsePath m.cwdName p)) (parsePath m.cwdName p)) := by
  obtain ⟨M', R, t⟩ := h.target p
  have hrest : (if M' ≠ [] ∧ R = [] then [] else R) = R := by
    split
    · rename_i hR
      exact hR.2.symm
    · rfl
  rw [t.resolve_filename, hrest]
  unfold ByRoot
  simp only [h.resolve_cwd]
  by_cases haddr : (m.mountOf (parsePath m.cwdName p)).addr = m.cwdmount
  · have hvfs : (m.mountOf (parsePath m.cwdName p)).vfs = lfs := by
      rw [← hlfs, ← haddr, mountAt_eq h.table.addr t.mem]
    obtain rfl := t.same h haddr
    rw [if_pos haddr, and_iff_right hvfs, t.names]
    exact (t.rest_root_iff hp).symm
  · rw [if_neg haddr, t.names, t.resolve, List.drop_left]

/-! ## Requests -/

variable {E : Type*} (fs : Littlefs E) {lfs : Fs} (rtc : Bool) {d : Driver}

theorem entry_iff (q q' : Path) : fs.entry q = fs.entry q' ↔ resolve [] q' = resolve [] q := by
  rw [fs.entry_eq_iff, eq_comm]

/-- The operations that pass their path through `get_path` depend on what it leads to only. -/
theorem fsUnlink_iff (cwd q q' : Path) : fsUnlink fs cwd q = fsUnlink fs cwd q' ↔ fs.entry (parsePath cwd q) = fs.entry (parsePath cwd q') := by
  unfold fsUnlink
  dsimp only
  constructor
  · intro h
    split at h <;> split at h <;> exact (LfsCall.getattr.inj (List.cons.inj h).1).1
  · intro h
    rw [h]

theorem fsOpen_iff (cwd q q' : Path) : fsOpen fs cwd q = fsOpen fs cwd q' ↔ fs.entry (parsePath cwd q) = fs.entry (parsePath cwd q') :=
  ⟨fun h => LfsCall.fileOpencfg.inj (List.cons.inj h).1, fun h => congrArg (fun e => [LfsCall.fileOpencfg e]) h⟩

theorem fsUtime_iff (cwd q q' : Path) : fsUtime fs cwd q = fsUtime fs cwd q' ↔ fs.entry (parsePath cwd q) = fs.entry (parsePath cwd q') :=
  ⟨fun h => (LfsCall.setattr.inj (List.cons.inj h).1).1, fun h => congrArg (fun e => [LfsCall.setattr e .timestamp]) h⟩

theorem fsOpendir_iff (q q' : Path) : fsOpendir fs q = fsOpendir fs q' ↔ fs.entry q = fs.entry q' :=
  ⟨fun h => LfsCall.dirOpen.inj (List.cons.inj h).1, fun h => congrArg (fun e => [LfsCall.dirOpen e]) h⟩

theorem fsRename_iff (q q' r r' : Path) : fsRename fs q r = fsRename fs q' r' ↔ fs.entry q = fs.entry q' ∧ fs.entry r = fs.entry r' := by
  constructor
  · exact fun h => LfsCall.rename.inj (List.cons.inj h).1
  · rintro ⟨h, h'⟩
    rw [fsRename, fsRename, h, h']

/-- `fs_mkdir` sets the attribute for the path as it is. -/
theorem fsMkdir_iff (cwd q q' : Path) : fsMkdir fs cwd rtc q = fsMkdir fs cwd rtc q' ↔
    fs.entry (parsePath cwd q) = fs.entry (parsePath cwd q') ∧
      (fs.mkdirOk (fs.entry (parsePath cwd q')) = true → rtc = true → fs.entry q = fs.entry q') := by
  unfold fsMkdir
  dsimp only
  constructor
  · intro h
    have hentry : fs.entry (parsePath cwd q) = fs.entry (parsePath cwd q') := by
      split at h <;> split at h <;> exact LfsCall.mkdir.inj (List.cons.inj h).1
    refine ⟨hentry, fun hok hrtc => ?_⟩
    rw [hentry, hok, hrtc] at h
    exact (LfsCall.setattr.inj (List.cons.inj (List.cons.inj h).2).1).1
  · rintro ⟨hentry, hattr⟩
    rw [hentry]
    split
    · rename_i hok
      rw [Bool.and_eq_true] at hok
      rw [hattr hok.1 hok.2]
    · rfl

/-- `fs_chmod` has resolved the path before, if it is still there. -/
theorem fsChmod_iff {d : Driver} {F : List Path} (hd : d.cwd = render F) (hF : ∀ n ∈ F, IsName n) (q q' : Path) :
    fsChmod fs d q = fsChmod fs d q' ∧ fsChmod fs d q' ≠ none ↔
      fs.entry (parsePath d.cwd q) = fs.entry (parsePath d.cwd q') ∧ ¬ d.Frees q' ∧ ¬ d.Frees q := by
  have hagain : ∀ q, parsePath d.cwd (parsePath d.cwd q) = parsePath d.cwd q := by
    rw [hd]
    exact fun q => (resolved ⟨F, hF⟩ q).idempotent (render F)
  unfold fsChmod
  dsimp only
  by_cases hq' : d.Frees q'
  · rw [if_pos hq']
    exact iff_of_false (fun h => h.2 rfl) fun h => h.2.1 hq'
  · by_cases hq : d.Frees q
    · rw [if_pos hq, if_neg hq']
      exact iff_of_false (fun h => Option.some_ne_none _ h.1.symm) fun h => h.2.2 hq
    · rw [if_neg hq, if_neg hq', and_iff_left (Option.some_ne_none _), and_iff_left ⟨hq', hq⟩, Option.some.injEq]
      unfold fsStat
      dsimp only
      rw [hagain, hagain]
      constructor
      · exact fun h => LfsCall.stat.inj (List.cons.inj h).1
      · intro h
        rw [h]

/-- A path that `get_path` leaves as it is does not make the buffer grow twice. -/
theorem Driver.not_frees_render (d : Driver) {R : List Path} (hR : ∀ n ∈ R, IsName n) : ¬ d.Frees (render R) := by
  have hsame : parsePath d.cwd (render R) = render R := parsePath_render ⟨R, hR⟩ d.cwd
  rintro ⟨hgrows, -⟩
  rw [hsame, bufferLen] at hgrows
  split at hgrows
  · omega
  · omega

theorem Target.frees_iff {d : Driver} {M' R : List Path} (t : Target m p M F M' R) :
    d.Frees (getFilename (m.mountOf (parsePath m.cwdName p)) (parsePath m.cwdName p)) ↔ d.FreesAbsolute m p := by
  unfold Driver.FreesAbsolute
  dsimp only
  rw [← and_assoc, t.toDir_iff, t.filename]
  split
  · rename_i hdir
    rw [and_iff_right hdir]
  · rename_i hdir
    exact iff_of_false (d.not_frees_render fun n hn => t.isName n (List.mem_append_right _ hn)) fun h => hdir h.1

theorem mountOf_relative (hp : p.head? ≠ some '/') : m.mountOf p = m.mountAt m.cwdmount := by
  rw [Machine.mountOf, Machine.getMount, if_pos hp]

theorem getFilename_relative (e : Mount) (hp : p.head? ≠ some '/') : getFilename e p = p := if_neg hp

theorem exec_relative (hlfs : (m.mountAt m.cwdmount).vfs = lfs) (hp : p.head? ≠ some '/') {op : Op} (hop : op ≠ .fstat) :
    (Request.one op p).exec fs lfs rtc m d = (op.calls fs rtc d p).elim .undefined .littlefs := by
  unfold Request.exec
  dsimp only
  rw [if_neg hop, mountOf_relative hp, if_pos hlfs, getFilename_relative _ hp]

theorem effect_inj {x y : Option (List (LfsCall E))} :
    x.elim Effect.undefined Effect.littlefs = y.elim Effect.undefined Effect.littlefs ↔ x = y := by
  cases x <;> cases y <;> simp

theorem one_same_iff (hlfs : (m.mountAt m.cwdmount).vfs = lfs) (hp : p.head? ≠ some '/') {op : Op} (hop : op ≠ .fstat) :
    (Request.one op p).Same fs lfs rtc m d ↔ (m.mountOf (parsePath m.cwdName p)).vfs = lfs ∧
      op.calls fs rtc d (getFilename (m.mountOf (parsePath m.cwdName p)) (parsePath m.cwdName p)) = op.calls fs rtc d p ∧
      op.calls fs rtc d p ≠ none := by
  have hnone : (op.calls fs rtc d p).elim Effect.undefined Effect.littlefs ≠ .undefined ↔ op.calls fs rtc d p ≠ none :=
    not_congr (effect_inj (y := none))
  rw [Request.Same, Request.absolute, exec_relative fs rtc hlfs hp hop, hnone]
  unfold Request.exec
  dsimp only
  rw [if_neg hop]
  split
  · rename_i hvfs
    rw [and_iff_right hvfs, effect_inj]
  · rename_i hvfs
    refine iff_of_false (fun h => ?_) fun h => hvfs h.1
    obtain ⟨calls, hcalls⟩ := Option.ne_none_iff_exists'.1 h.2
    rw [hcalls] at h
    cases h.1

theorem one_same_iff_of_some (hlfs : (m.mountAt m.cwdmount).vfs = lfs) (hp : p.head? ≠ some '/') {op : Op} (hop : op ≠ .fstat)
    {calls : Path → List (LfsCall E)} (hcalls : ∀ q, op.calls fs rtc d q = some (calls q)) :
    (Request.one op p).Same fs lfs rtc m d ↔ (m.mountOf (parsePath m.cwdName p)).vfs = lfs ∧
      calls (getFilename (m.mountOf (parsePath m.cwdName p)) (parsePath m.cwdName p)) = calls p := by
  rw [one_same_iff fs rtc hlfs hp hop, hcalls, hcalls, and_iff_left (Option.some_ne_none _), Option.some.injEq]

theorem exec_rename_iff (h : Here m cwd M F) (hlfs : (m.mountAt m.cwdmount).vfs = lfs) {q : Path} (hp : p.head? ≠ some '/')
    (hq : q.head? ≠ some '/') {a b : Path} (ha : m.mountOf a ∈ m.table) (hb : m.mountOf b ∈ m.table) :
    (Request.rename a b).exec fs lfs rtc m d = (Request.rename p q).exec fs lfs rtc m d ↔
      ((m.mountOf a).vfs = lfs ∧ resolve [] p = resolve [] (getFilename (m.mountOf a) a)) ∧
      ((m.mountOf b).vfs = lfs ∧ resolve [] q = resolve [] (getFilename (m.mountOf b) b)) ∧ (m.mountOf a).addr = (m.mountOf b).addr := by
  unfold Request.exec
  dsimp only
  rw [mountOf_relative hp, mountOf_relative hq, if_pos rfl, if_pos hlfs, getFilename_relative _ hp, getFilename_relative _ hq]
  by_cases haddr : (m.mountOf a).addr = (m.mountOf b).addr
  · have hsame : m.mountOf a = m.mountOf b := by
      rw [← mountAt_eq h.table.addr ha, haddr, mountAt_eq h.table.addr hb]
    rw [if_pos haddr, and_iff_left haddr, hsame]
    split
    · rename_i hvfs
      rw [Effect.littlefs.injEq, fsRename_iff, entry_iff, entry_iff, and_iff_right hvfs, and_iff_right hvfs]
    · rename_i hvfs
      exact iff_of_false nofun fun h => hvfs h.1.1
  · rw [if_neg haddr]
    exact iff_of_false nofun fun h => haddr h.2.2

/-- A request does the same with relative and with absolute paths exactly if it agrees. -/
theorem same_iff (h : Established lfs m d.cwd) (hfault : m.fault = false) (hlfs : (m.mountAt m.cwdmount).vfs = lfs) (r : Request)
    (hr : ∀ p ∈ r.paths, p.head? ≠ some '/') : r.Same fs lfs rtc m d ↔ r.Agrees fs lfs rtc m d := by
  obtain ⟨M, F, hhere⟩ := h.here hfault
  have hF : ∀ n ∈ F, IsName n := fun n hn => hhere.isName n (List.mem_append_right _ hn)
  cases r with
  | one op p =>
      have hp := hr p List.mem_cons_self
      have hcwd := byCwd_iff hhere hlfs hp
      have hroot := byRoot_iff hhere hlfs hp
      cases op with
      | fstat =>
          refine iff_of_true ⟨?_, ?_⟩ trivial
          · have hagain : parsePath m.cwdName (parsePath m.cwdName p) = parsePath m.cwdName p := by
              rw [hhere.cwdName]
              exact (resolved ⟨_, hhere.isName⟩ p).idempotent _
            rw [Request.absolute]
            unfold Request.exec
            dsimp only
            rw [if_pos rfl, if_pos rfl, hagain]
          · unfold Request.exec Op.calls
            dsimp only [Option.elim_some]
            rw [if_pos rfl]
            split
            · exact nofun
            · exact nofun
      | fopen =>
          change _ ↔ ByCwd lfs m d.cwd p
          rw [one_same_iff_of_some fs rtc hlfs hp (by decide) fun _ => rfl, hcwd, fsOpen_iff, entry_iff]
      | funlink =>
          change _ ↔ ByCwd lfs m d.cwd p
          rw [one_same_iff_of_some fs rtc hlfs hp (by decide) fun _ => rfl, hcwd, fsUnlink_iff, entry_iff]
      | frmdir =>
          change _ ↔ ByCwd lfs m d.cwd p
          rw [one_same_iff_of_some fs rtc hlfs hp (by decide) fun _ => rfl, hcwd, fsUnlink_iff, entry_iff]
      | futime =>
          change _ ↔ ByCwd lfs m d.cwd p
          rw [one_same_iff_of_some fs rtc hlfs hp (by decide) fun _ => rfl, hcwd, fsUtime_iff, entry_iff]
      | fopendir =>
          rw [one_same_iff_of_some fs rtc hlfs hp (by decide) fun _ => rfl, Request.Agrees, hroot, fsOpendir_iff, entry_iff]
      | fchmod =>
          obtain ⟨_, _, t⟩ := hhere.target p
          rw [one_same_iff fs rtc hlfs hp (by decide), Request.Agrees, hcwd, Op.calls, Op.calls, fsChmod_iff fs hhere.cwd hF,
            entry_iff, t.frees_iff, and_assoc]
      | fmkdir =>
          rw [one_same_iff_of_some fs rtc hlfs hp (by decide) fun _ => rfl, Request.Agrees, hcwd, hroot, fsMkdir_iff, entry_iff,
            entry_iff]
          constructor
          · exact fun ⟨hvfs, hentry, hattr⟩ => ⟨⟨hvfs, hentry⟩, fun hok hrtc => ⟨hvfs, hattr hok hrtc⟩⟩
          · exact fun ⟨⟨hvfs, hentry⟩, hattr⟩ => ⟨hvfs, hentry, fun hok hrtc => (hattr hok hrtc).2⟩
  | rename p q =>
      have hp := hr p List.mem_cons_self
      have hq := hr q (List.mem_cons_of_mem _ List.mem_cons_self)
      obtain ⟨_, _, tp⟩ := hhere.target p
      obtain ⟨_, _, tq⟩ := hhere.target q
      have hdefined : (Request.rename p q).exec fs lfs rtc m d ≠ .undefined := by
        unfold Request.exec
        dsimp only
        split
        · split
          · exact nofun
          · exact nofun
        · exact nofun
      rw [Request.Same, and_iff_left hdefined, Request.absolute, exec_rename_iff fs rtc hhere hlfs hp hq tp.mem tq.mem,
        Request.Agrees, byRoot_iff hhere hlfs hp, byRoot_iff hhere hlfs hq]

end

/-! ## Runs -/

def filesOnly : Littlefs (List Path) where
  entry := resolve []
  entry_eq_iff _ _ := Iff.rfl
  statOk _ := true
  isDir _ := false
  readOnly _ := false
  mkdirOk _ := true

/-- It is mounted, and the current directory is `/littlefs/a`. -/
def inDirectory : Machine :=
  Machine.vfsChdir { mounts := [⟨5, "/littlefs/".toList, .given 1⟩] } "/littlefs/a".toList true true

theorem established_inDirectory : Established (.given 1) inDirectory "/a".toList := by
  have hrun : run step {} [.mount "/littlefs".toList 1 (some 5)] = some { mounts := [⟨5, "/littlefs/".toList, .given 1⟩] } := rfl
  have h : Established (.given 1) _ _ := .chdir "/littlefs/a".toList hrun (by decide +kernel)
  have hname : orRoot (getFilename
      (Machine.mountOf { mounts := [⟨5, "/littlefs/".toList, .given 1⟩] } (parsePath ['/'] "/littlefs/a".toList))
      (parsePath ['/'] "/littlefs/a".toList)) = "/a".toList := by
    decide +kernel
  rw [hname] at h
  exact h

/-- The driver there; its buffer is not allocated yet. -/
def inDirectoryDriver : Driver := ⟨"/a".toList, 0, fun _ _ => true⟩

/-- The directory above is the same for `vfs_opendir`, since it is that of the mount. -/
theorem same_iff_above :
    (Request.one .fopendir "..".toList).Same filesOnly (.given 1) true inDirectory inDirectoryDriver ↔
      (Request.one .fopendir "..".toList).Agrees filesOnly (.given 1) true inDirectory inDirectoryDriver :=
  same_iff (d := inDirectoryDriver) filesOnly true established_inDirectory (by decide +kernel) (by decide +kernel) _ (by decide +kernel)

/-- `vfs_opendir("x")` opens `/x` of the file system, and with the absolute path `/a/x`. -/
theorem opendir_from_the_root : ¬ ∀ (fs : Littlefs (List Path)) (lfs : Fs) (rtc : Bool) (m : Machine) (d : Driver) (r : Request),
    Established lfs m d.cwd → m.fault = false → (m.mountAt m.cwdmount).vfs = lfs → (∀ p ∈ r.paths, p.head? ≠ some '/') →
      r.Same fs lfs rtc m d := by
  intro h
  have hsame := (h filesOnly (.given 1) true inDirectory inDirectoryDriver (.one .fopendir "x".toList) established_inDirectory
    (by decide +kernel) (by decide +kernel) (by decide +kernel)).1
  have habs : ((Request.one .fopendir "x".toList).absolute inDirectory.cwdName).exec filesOnly (.given 1) true inDirectory
      inDirectoryDriver = .littlefs [.dirOpen [['a'], ['x']]] := rfl
  have hrel : (Request.one .fopendir "x".toList).exec filesOnly (.given 1) true inDirectory inDirectoryDriver =
      .littlefs [.dirOpen [['x']]] := rfl
  rw [habs, hrel] at hsame
  exact absurd (LfsCall.dirOpen.inj (List.cons.inj (Effect.littlefs.inj hsame)).1) (by decide)

end Grbl.Vfs
