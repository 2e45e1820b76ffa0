import Grbl.Lib.FirstMatch
import Grbl.Lib.Run

/-!
# The mount table of the virtual file system

* `Machine` : the root entry, the list of mounts behind it, the current directory and its mount;
* `pathIsMountDir`, `getMount`, `getFilename`, `parsePath` : the lookups;
* `vfsMount`, `vfsUnmount`, `vfsChdir` : the calls, `step` : one of them;
* `Resolves`, `Reference` : what is claimed of every state; `Action.Safe` : the condition.
-/

namespace Grbl.Vfs
open Lib

abbrev Path := List Char

def vfsMountPathLen : ℕ := 33

/-- A file system: `fs_null`, which is known in the module only, or one that a caller passes. -/
inductive Fs
  | null
  | given (n : ℕ)
  deriving DecidableEq, Repr

/-- `vfs_mount_t`, with its address. -/
structure Mount where
  addr : ℕ
  path : Path
  vfs : Fs
  deriving DecidableEq, Repr

/-- `&root` -/
def rootAddr : ℕ := 0

/-- The entry `root` (its file system; its path does not change), the list that starts at `root.next`, and
`cwdmount`, `cwd`. A read or write outside an object, or a `free` of what was not allocated, sets `fault`. -/
structure Machine where
  rootVfs : Fs := .null
  mounts : List Mount := []
  cwdmount : ℕ := rootAddr
  cwdName : Path := ['/']
  cwdLen : ℕ := 100
  fault : Bool := false

inductive Action
  /-- `vfs_mount`; `calloc` is what `calloc` returns, if it is called -/
  | mount (path : Path) (fs : ℕ) (calloc : Option ℕ)
  | unmount (path : Path)
  /-- `vfs_chdir`; `ok` is the answer of the file system, `realloc` whether there is memory for the name -/
  | chdir (path : Path) (ok realloc : Bool)
  deriving DecidableEq, Repr

/-- A path with a separator at its end. -/
def asDir (path : Path) : Path := if path.getLast? = some '/' then path else path ++ ['/']

namespace Machine

def root (m : Machine) : Mount := { addr := rootAddr, path := ['/'], vfs := m.rootVfs }

def table (m : Machine) : List Mount := m.root :: m.mounts

def pathIsMountDir (m : Machine) (path : Path) : Option Mount :=
  if path = ['/'] then some m.root
  else
    let plen := if path.getLast? = some '/' then path.length - 1 else path.length
    m.mounts.find? fun mount => mount.path.length - 1 = plen ∧ mount.path.take plen = path.take plen

def getMount (m : Machine) (path : Path) : ℕ :=
  if path.head? ≠ some '/' then m.cwdmount
  else
    match m.pathIsMountDir path with
    | some mount => mount.addr
    | none => ((m.mounts.find? fun mount => mount.path <+: path).getD m.root).addr

def vfsMount (m : Machine) (path : Path) (fs : ℕ) (calloc : Option ℕ) : Machine × Bool :=
  let attach : Machine × Bool :=
    if path = ['/'] then ({ m with rootVfs := .given fs }, true)
    else
      match calloc with
      | none => (m, true)
      | some addr =>
          if (asDir path).length < vfsMountPathLen then
            ({ m with mounts := m.mounts ++ [{ addr := addr, path := asDir path, vfs := .given fs }] }, true)
          else ({ m with fault := true }, true)
  if path = [] then ({ m with fault := true }, true)
  else
    match m.pathIsMountDir path with
    | some mount => if mount.vfs ≠ .null then (m, mount.vfs = .given fs) else attach
    | none => attach

/-- `vfs_unmount`; a `free` of the root entry is one of what was not allocated. -/
def vfsUnmount (m : Machine) (path : Path) : Machine :=
  if path = ['/'] then
    { m with rootVfs := .null, cwdName := if m.cwdmount = rootAddr then ['/'] else m.cwdName }
  else
    let mount := m.getMount path
    let m := if mount = m.cwdmount then { m with cwdmount := rootAddr, cwdName := ['/'] } else m
    { m with
      mounts := m.mounts.eraseP fun e => e.addr = mount
      fault := m.fault || m.mounts.all fun e => e.addr ≠ mount }

end Machine

def getFilename (mount : Mount) (filename : Path) : Path :=
  if filename.head? = some '/' then filename.drop (if mount.path.length = 1 then 0 else mount.path.length - 1)
  else filename

/-- `parse_path`, for one element of the path. -/
def parseElement (abspath el : Path) : Path :=
  if el = ['.', '.'] then
    -- up to the last separator, which stays if it is the first character
    match (abspath.reverse.dropWhile (· ≠ '/')).reverse with
    | [] => abspath
    | [c] => [c]
    | c :: d :: l => (c :: d :: l).dropLast
  else if el = ['.'] then abspath
  else if abspath.length = 1 then abspath ++ el
  else abspath ++ '/' :: el

def parsePath (cwd path : Path) : Path :=
  ((path.splitOn '/').filter (· ≠ [])).foldl parseElement (if path.head? = some '/' then ['/'] else cwd)

/-- `vfs_chdir`; the file system is asked about `getFilename mount path`. -/
def Machine.vfsChdir (m : Machine) (path : Path) (ok realloc : Bool) : Machine :=
  let path := parsePath m.cwdName path
  if ok then
    if path.length > m.cwdLen ∧ realloc = false then
      { m with cwdName := ['/'], cwdLen := 100, cwdmount := rootAddr }
    else { m with cwdName := path, cwdLen := max path.length m.cwdLen, cwdmount := m.getMount path }
  else m

/-- One call; `calloc` returns memory that is not in use. -/
def step (m : Machine) : Action → Option Machine
  | .mount path fs calloc =>
      if ∀ e ∈ m.table, calloc ≠ some e.addr then some (m.vfsMount path fs calloc).1 else none
  | .unmount path => some (m.vfsUnmount path)
  | .chdir path ok realloc => some (m.vfsChdir path ok realloc)

/-! ## What is claimed -/

/-- `get_mount` finds the longest mounted prefix of an absolute path, the root entry is not freed, and
`cwdmount` is in the table. -/
structure Resolves (m : Machine) : Prop where
  fault : m.fault = false
  addr : (m.table.map Mount.addr).Nodup
  mount : ∀ path : Path, path.head? = some '/' →
    ∃ e, Longest Mount.path m.table (asDir path) e ∧ m.getMount path = e.addr
  cwdmount : m.cwdmount ∈ m.table.map Mount.addr

/-- What is mounted, by directory. -/
abbrev Reference := Path → Option Fs

def Reference.start : Reference := fun dir => if dir = ['/'] then some .null else none

/-- What a call is for: a file system is mounted where there is none, or removed from its directory. -/
def Reference.next (r : Reference) : Action → Reference
  | .mount path fs calloc =>
      match r (asDir path) with
      | some (.given _) => r
      | _ => if path = ['/'] ∨ calloc.isSome then Function.update r (asDir path) (some (.given fs)) else r
  | .unmount path => Function.update r (asDir path) (if path = ['/'] then some .null else none)
  | .chdir _ _ _ => r

def Mirrors (m : Machine) (r : Reference) : Prop :=
  ∀ dir fs, (∃ e ∈ m.table, e.path = dir ∧ e.vfs = fs) ↔ r dir = some fs

/-! ## The condition -/

/-- A path is not mounted below another mount than the root, it fits, and what is unmounted is the absolute
path of a mount. -/
def Action.Safe (m : Machine) : Action → Prop
  | .mount path _ _ =>
      path ≠ [] ∧ (m.pathIsMountDir path = none →
        (asDir path).length < vfsMountPathLen ∧ ∀ e ∈ m.mounts, ¬ e.path <+: asDir path)
  | .unmount path => path.head? = some '/' ∧ (m.pathIsMountDir path).isSome
  | .chdir _ _ _ => True

instance (m : Machine) (a : Action) : Decidable (a.Safe m) := by
  unfold Action.Safe
  split <;> infer_instance

end Grbl.Vfs
