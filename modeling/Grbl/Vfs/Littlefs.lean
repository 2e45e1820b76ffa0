import Grbl.Vfs.Paths
import Grbl.Vfs.Resolution

/-!
# Relative and absolute paths on littlefs

The current directory is known to the virtual file system and, without the mount in front, to the driver. A relative path goes to the
mount of the current directory as it is; each operation of the driver passes it to littlefs either as it is or through `get_path`.

* `Littlefs`, `LfsCall` : littlefs, and the calls it gets; `Driver` : the driver, with its buffer; `fsOpen` .. `fsUtime` : its
  operations;
* `Request.exec` : the calls of the virtual file system; `Established` : the current directory is one that `vfs_chdir` has set;
* `Table` : what holds of the mounts and the current directory in every run;
* `Request.Same` : a request does the same with absolute paths; `ByCwd`, `ByRoot`, `Request.Agrees` : when it does.
-/

namespace Grbl.Vfs
open Lib

/-! ## littlefs -/

/-- A littlefs file system: every path is resolved from its root. What it answers about an entry does not depend on the path. -/
structure Littlefs (E : Type*) where
  entry : Path → E
  entry_eq_iff : ∀ p q, entry p = entry q ↔ resolve [] p = resolve [] q
  statOk : E → Bool
  isDir : E → Bool
  readOnly : E → Bool
  mkdirOk : E → Bool

inductive Attr
  | mode
  | timestamp

inductive LfsCall (E : Type*)
  /-- `lfs_file_opencfg`, with both attributes -/
  | fileOpencfg (e : E)
  | remove (e : E)
  | rename (e e' : E)
  | mkdir (e : E)
  | dirOpen (e : E)
  | stat (e : E)
  | getattr (e : E) (a : Attr)
  | setattr (e : E) (a : Attr)

/-- The driver: its current directory, the length of the buffer of `get_path`, and whether `realloc` moves it when it grows from one
length to another. -/
structure Driver where
  cwd : Path
  len : ℕ
  moves : ℕ → ℕ → Bool

/-- What `get_path` has returned for a path is freed when it is its argument: the buffer grows again, and is moved. -/
def Driver.Frees (d : Driver) (path : Path) : Prop :=
  let abspath := parsePath d.cwd path
  let len := bufferLen d.cwd path d.len
  d.cwd.length + abspath.length + 1 > len ∧ d.moves len (bufferLen d.cwd abspath len)

instance (d : Driver) (path : Path) : Decidable (d.Frees path) := by
  unfold Driver.Frees
  infer_instance

section
variable {E : Type*} (fs : Littlefs E) (cwd : Path) (rtc : Bool)

def fsOpen (filename : Path) : List (LfsCall E) := [.fileOpencfg (fs.entry (parsePath cwd filename))]

/-- `fs_unlink`, also the `frmdir` of the driver -/
def fsUnlink (filename : Path) : List (LfsCall E) :=
  let e := fs.entry (parsePath cwd filename)
  if fs.readOnly e then [.getattr e .mode] else [.getattr e .mode, .remove e]

/-- `fs_mkdir`: the attribute is set for `path` as it is. -/
def fsMkdir (path : Path) : List (LfsCall E) :=
  let e := fs.entry (parsePath cwd path)
  if fs.mkdirOk e && rtc then [.mkdir e, .setattr (fs.entry path) .timestamp] else [.mkdir e]

def fsRename (src dst : Path) : List (LfsCall E) := [.rename (fs.entry src) (fs.entry dst)]

def fsOpendir (path : Path) : List (LfsCall E) := [.dirOpen (fs.entry path)]

/-- `fs_stat`: the attributes are those of `filename` as it is. -/
def fsStat (filename : Path) : List (LfsCall E) :=
  let e := fs.entry (parsePath cwd filename)
  .stat e ::
    if fs.statOk e then
      (if fs.isDir e then [] else [.getattr (fs.entry filename) .mode]) ++ [.getattr (fs.entry filename) .timestamp]
    else []

/-- `fs_chmod`: what `get_path` has returned is its argument in `fs_stat`; without a value when it is read after it has been freed. -/
def fsChmod (d : Driver) (filename : Path) : Option (List (LfsCall E)) :=
  if d.Frees filename then none
  else
    let filename := parsePath d.cwd filename
    some (fsStat fs d.cwd filename ++
      if fs.statOk (fs.entry (parsePath d.cwd filename)) then [.setattr (fs.entry filename) .mode] else [])

def fsUtime (filename : Path) : List (LfsCall E) := [.setattr (fs.entry (parsePath cwd filename)) .timestamp]

end

/-! ## Requests -/

/-- The operations on one path. -/
inductive Op
  | fopen
  | funlink
  | fmkdir
  | frmdir
  | fopendir
  | fstat
  | fchmod
  | futime
  deriving DecidableEq

/-- A call of `vfs_open` .. `vfs_utime`, or of `vfs_rename`. -/
inductive Request
  | one (op : Op) (path : Path)
  | rename (src dst : Path)

/-- What littlefs gets to do, or what another file system is asked; `undefined` when the path has been freed. -/
inductive Effect (E : Type*)
  | littlefs (calls : List (LfsCall E))
  | undefined
  | other (fs : Fs) (names : List Path)
  | refused

/-- The entry at an address. -/
def Machine.mountAt (m : Machine) (addr : ℕ) : Mount := (m.table.find? (·.addr = addr)).getD m.root

/-- The entry that `get_mount` finds. -/
def Machine.mountOf (m : Machine) (path : Path) : Mount := m.mountAt (m.getMount path)

section
variable {E : Type*} (fs : Littlefs E) (lfs : Fs) (rtc : Bool)

/-- The functions that the driver has registered. -/
def Op.calls (d : Driver) (op : Op) (path : Path) : Option (List (LfsCall E)) :=
  match op with
  | .fopen => some (fsOpen fs d.cwd path)
  | .funlink | .frmdir => some (fsUnlink fs d.cwd path)
  | .fmkdir => some (fsMkdir fs d.cwd rtc path)
  | .fopendir => some (fsOpendir fs path)
  | .fstat => some (fsStat fs d.cwd path)
  | .fchmod => fsChmod fs d path
  | .futime => some (fsUtime fs d.cwd path)

/-- A request; `lfs` is the file system that the driver has registered. -/
def Request.exec (m : Machine) (d : Driver) : Request → Effect E
  | .one op path =>
      -- `vfs_stat` alone parses the path itself
      let path := if op = .fstat then parsePath m.cwdName path else path
      let mount := m.mountOf path
      let name := getFilename mount path
      if mount.vfs = lfs then (op.calls fs rtc d name).elim .undefined .littlefs else .other mount.vfs [name]
  | .rename src dst =>
      let mountFrom := m.mountOf src
      let mountTo := m.mountOf dst
      if mountFrom.addr = mountTo.addr then
        if mountFrom.vfs = lfs then .littlefs (fsRename fs (getFilename mountFrom src) (getFilename mountTo dst))
        else .other mountFrom.vfs [getFilename mountFrom src, getFilename mountTo dst]
      else .refused

end

def Request.paths : Request → List Path
  | .one _ path => [path]
  | .rename src dst => [src, dst]

def Request.absolute (cwd : Path) : Request → Request
  | .one op path => .one op (parsePath cwd path)
  | .rename src dst => .rename (parsePath cwd src) (parsePath cwd dst)

def Request.Same {E : Type*} (fs : Littlefs E) (lfs : Fs) (rtc : Bool) (m : Machine) (d : Driver) (r : Request) : Prop :=
  (r.absolute m.cwdName).exec fs lfs rtc m d = r.exec fs lfs rtc m d ∧ r.exec fs lfs rtc m d ≠ .undefined

/-! ## The current directory -/

/-- `vfs_chdir` has set the current directory, and has called `fs_chdir` with what is left of it behind the mount; what was mounted and
unmounted since has left it in place. -/
inductive Established (lfs : Fs) : Machine → Path → Prop
  | chdir {as : List Action} {m : Machine} (path : Path) (hrun : run step {} as = some m)
      (hlfs : (m.mountOf (parsePath m.cwdName path)).vfs = lfs) :
      Established lfs (m.vfsChdir path true true)
        (orRoot (getFilename (m.mountOf (parsePath m.cwdName path)) (parsePath m.cwdName path)))
  | mount {m m' : Machine} {cwd : Path} (path : Path) (fs : ℕ) (calloc : Option ℕ) (h : Established lfs m cwd)
      (hstep : step m (.mount path fs calloc) = some m') : Established lfs m' cwd
  | unmount {m m' : Machine} {cwd : Path} (path : Path) (h : Established lfs m cwd) (hstep : step m (.unmount path) = some m')
      (hcwd : m'.cwdmount = m.cwdmount ∧ m'.cwdName = m.cwdName) : Established lfs m' cwd

/-! ## The condition -/

/-- The directory of a mount, by the names that lead to it. -/
def Mount.names (e : Mount) : List (List Char) := resolve [] e.path

section
variable (lfs : Fs) (m : Machine) (cwd path : Path)

/-- A relative path that goes through `get_path` of the driver. In the mount of the current directory, it climbs no further than to
the directory of the mount (whatever it does, if that is the root); if it leads to that directory itself, below the root, the driver
is given nothing instead of its absolute path, and it must lead from its current directory to the same one. -/
def ByCwd : Prop :=
  let e := m.mountOf (parsePath m.cwdName path)
  let target := resolve [] (parsePath m.cwdName path)
  if e.addr = m.cwdmount then
    if target = e.names ∧ e.names ≠ [] then resolve (resolve [] cwd) path = resolve [] cwd
    else climbs path ≤ (resolve [] cwd).length ∨ e.names = []
  else
    e.vfs = lfs ∧
      resolve (resolve [] cwd) path = if target = e.names ∧ e.names ≠ [] then resolve [] cwd else target.drop e.names.length

/-- One that is passed on to littlefs as it is: in the mount of the current directory, it climbs exactly to the directory of the mount
(or above it, if that is the root). -/
def ByRoot : Prop :=
  let e := m.mountOf (parsePath m.cwdName path)
  if e.addr = m.cwdmount then
    climbs path = (resolve [] cwd).length ∨ e.names = [] ∧ (resolve [] cwd).length ≤ climbs path
  else e.vfs = lfs ∧ resolve [] path = (resolve [] (parsePath m.cwdName path)).drop e.names.length

instance : Decidable (ByCwd lfs m cwd path) := by
  unfold ByCwd
  infer_instance

instance : Decidable (ByRoot lfs m cwd path) := by
  unfold ByRoot
  infer_instance

end

/-- What `fs_chmod` is given for the absolute path: nothing for the directory of the mount, and otherwise a path that `get_path`
leaves as it is, so that the buffer grows once. -/
def Driver.FreesAbsolute (d : Driver) (m : Machine) (path : Path) : Prop :=
  let e := m.mountOf (parsePath m.cwdName path)
  resolve [] (parsePath m.cwdName path) = e.names ∧ e.names ≠ [] ∧ d.Frees []

/-- When a request does the same with absolute paths. -/
def Request.Agrees {E : Type*} (fs : Littlefs E) (lfs : Fs) (rtc : Bool) (m : Machine) (d : Driver) : Request → Prop
  | .one .fstat _ => True
  | .one .fopendir path => ByRoot lfs m d.cwd path
  | .one .fmkdir path =>
      ByCwd lfs m d.cwd path ∧ (fs.mkdirOk (fs.entry (parsePath d.cwd path)) = true → rtc = true → ByRoot lfs m d.cwd path)
  | .one .fchmod path => ByCwd lfs m d.cwd path ∧ ¬ d.Frees path ∧ ¬ d.FreesAbsolute m path
  | .one _ path => ByCwd lfs m d.cwd path
  | .rename src dst =>
      ByRoot lfs m d.cwd src ∧ ByRoot lfs m d.cwd dst ∧
        (m.mountOf (parsePath m.cwdName src)).addr = (m.mountOf (parsePath m.cwdName dst)).addr

end Grbl.Vfs
