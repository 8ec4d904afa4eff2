import MissionOs.Rust.Cut
import MissionOs.Rust.Decimal

/-!
# Versions of releases

`version.rs` of mission-core: a semantic version, how it is read and printed, and its order.
-/

namespace MissionOs.Core

open MissionOs.Rust

/-! ## The version -/

/-- `VersionParseErrorKind`. -/
inductive VersionParseErrorKind where
  | empty
  | missingComponent
  | invalidMajor (e : String)
  | invalidMinor (e : String)
  | invalidPatch (e : String)
  | invalidPrerelease (s : String)
  | trailingInput (s : String)
deriving DecidableEq, Repr

/-- `VersionParseError`. -/
structure VersionParseError where
  input : String
  kind : VersionParseErrorKind
deriving DecidableEq, Repr

/-- `Version`. -/
structure Version where
  major : UInt64
  minor : UInt64
  patch : UInt64
  pre : List String
  build : List String
deriving DecidableEq, Repr

namespace Version

/-! ## Reading -/

/-- The identifiers in what follows a mark.  An empty text has none. -/
def identifiers : Option (List Char) → List String
  | none => []
  | some [] => []
  | some (c :: s) => ((c :: s).splitOn '.').map String.ofList

/-- `u64::parse` of one component, with the kind of its error. -/
def parseComponent (input : String) (kind : String → VersionParseErrorKind) (s : List Char) :
    Except VersionParseError UInt64 :=
  match parseU64 s with
  | .ok n => .ok n
  | .error e => .error ⟨input, kind e.display⟩

/-- `Version::parse`. -/
def parse (input : String) : Except VersionParseError Version :=
  if input.toList.isEmpty then
    .error ⟨input, .empty⟩
  else
    let (core, build) := splitAtFirst '+' input.toList
    let (numeric, pre) := splitAtFirst '-' core
    match numeric.splitOn '.' with
    | [p0, p1, p2] => do
        let major ← parseComponent input .invalidMajor p0
        let minor ← parseComponent input .invalidMinor p1
        let patch ← parseComponent input .invalidPatch p2
        pure ⟨major, minor, patch, identifiers pre, identifiers build⟩
    | _ :: _ :: _ :: rest =>
        .error ⟨input, .trailingInput (join "." (rest.map String.ofList))⟩
    | _ => .error ⟨input, .missingComponent⟩

/-! ## Printing -/

/-- The `Display` text of a version. -/
def display (v : Version) : String :=
  toString v.major ++ "." ++ toString v.minor ++ "." ++ toString v.patch ++
    (if v.pre.isEmpty then "" else "-" ++ join "." v.pre) ++
    (if v.build.isEmpty then "" else "+" ++ join "." v.build)

/-! ## The order -/

/-- `compare_pre_release_id`. -/
def comparePreReleaseId (a b : String) : Ordering :=
  match parseU64 a.toList, parseU64 b.toList with
  | .ok an, .ok bn => compare an bn
  | .ok _, .error _ => .lt
  | .error _, .ok _ => .gt
  | .error _, .error _ => strCmp a.toList b.toList

/-- `compare_pre_release`.  The lengths are compared where the shorter list ends; what stands
before it in both has the same length. -/
def comparePreRelease : List String → List String → Ordering
  | x :: a, y :: b =>
    match comparePreReleaseId x y with
    | .eq => comparePreRelease a b
    | ord => ord
  | a, b => compare a.length b.length

/-- The match on whether the two lists of prerelease identifiers are empty. -/
def cmpPre (a b : List String) : Ordering :=
  match a.isEmpty, b.isEmpty with
  | true, true => .eq
  | true, false => .gt
  | false, true => .lt
  | false, false => comparePreRelease a b

/-- `Ord::cmp` of `Version`. -/
def cmp (a b : Version) : Ordering :=
  (compare a.major b.major).then <|
    (compare a.minor b.minor).then <|
      (compare a.patch b.patch).then (cmpPre a.pre b.pre)

end Version

end MissionOs.Core
