/-
Paths and configuration of the agent's file manager (`file_manager.rs`, `std::path`).

A path is its components: empty parts and `.` are dropped, but for a leading `.`; `..` stays, since what stands before it may be
a link. `parent`, `fileName` and `withExtension` are those of `Path`.
-/
import Mathlib.Tactic

namespace ServerBee.Files

/-! ## Components -/

inductive Component where
  | root
  | cur
  | up
  | normal (name : String)
deriving DecidableEq, Repr

abbrev Path := List Component

def Component.ofPart (part : String) : Option Component :=
  if part = "" ∨ part = "." then none
  else if part = ".." then some .up
  else some (.normal part)

def parts (path : String) : List String := (path.toList.splitOn '/').map String.ofList

def components (path : String) : Path :=
  match parts path with
  | "" :: part :: rest => .root :: (part :: rest).filterMap Component.ofPart
  | "." :: rest => .cur :: rest.filterMap Component.ofPart
  | parts => parts.filterMap Component.ofPart

def parent (path : Path) : Option Path :=
  match path.getLast? with
  | none | some .root => none
  | some _ => some path.dropLast

def fileName (path : Path) : Option String :=
  match path.getLast? with
  | some (.normal name) => some name
  | _ => none

/-- without the last dot and what follows it; a name that only starts with a dot is its own stem -/
def fileStem (name : String) : String :=
  match name.toList.reverse.dropWhile (· ≠ '.') with
  | [] | [_] => name
  | _ :: stem => String.ofList stem.reverse

/-- of a path with a file name -/
def withExtension (name ext : String) : String := fileStem name ++ "." ++ ext

example : components "/srv/./data//../x.txt" = [.root, .normal "srv", .normal "data", .up, .normal "x.txt"] := by decide
example : withExtension "notes.tar.gz" "sb-tmp" = "notes.tar.sb-tmp" ∧ withExtension ".env" "sb-tmp" = ".env.sb-tmp" := by
  decide

/-! ## Configuration -/

structure FileConfig where
  rootPaths : List String
  denyPatterns : List String
  maxFileSize : ℕ
deriving DecidableEq, Repr

/-- `*` stands at one end of a pattern -/
def matchesDenyPattern (filename pattern : String) : Bool :=
  match pattern.toList with
  | '*' :: suffix => suffix.isSuffixOf filename.toList
  | pattern' =>
    if pattern'.getLast? = some '*' then pattern'.dropLast.isPrefixOf filename.toList
    else filename == pattern

def FileConfig.denies (config : FileConfig) (filename : String) : Bool := config.denyPatterns.any (matchesDenyPattern filename)

example : matchesDenyPattern "server.key" "*.key" ∧ matchesDenyPattern "id_rsa.pub" "id_rsa*" ∧ ¬ matchesDenyPattern "a.env" ".env" := by
  decide

/-- a canonical directory, by the names that lead to it from the root -/
abbrev Dir := List String

/-- a directory entry -/
structure Loc where
  dir : Dir
  name : String
deriving DecidableEq, Repr

end ServerBee.Files
