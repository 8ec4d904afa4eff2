import MissionOs.Driverd.Inventory

/-!
# Hardware matching

What `matching.rs` knows of the running system, and its matching of a modalias
against a pattern with the wildcard `*`.

The matcher works on the bytes of the two strings; `matchSegments` is its loop
over the parts between the wildcards, for lists over any type.
-/

namespace MissionOs.Driverd

open MissionOs.Rust

/-- `SystemInfo`. -/
structure SystemInfo where
  kernelVersion : String
  architecture : String
  kernelFeatures : List String
deriving DecidableEq, Repr

/-- The architectures that have two names. -/
def architectureAliases : List (String × String) :=
  [("x86_64", "amd64"), ("amd64", "x86_64"), ("aarch64", "arm64"), ("arm64", "aarch64")]

/-! ## Modalias patterns -/

section Segments

variable {α : Type} [BEq α]

/-- `find_subslice`: where `needle` first stands in `haystack`. -/
def findSubslice (haystack needle : List α) : Option Nat :=
  if needle.isEmpty then some 0
  else haystack.tails.findIdx? fun t => needle.isPrefixOf t

/-- The loop of `modalias_pattern_match` from segment `i` of `count`, with the
text before `pos` used up. -/
def matchSegments (count : Nat) (text : List α) : Nat → Nat → List (List α) → Bool
  | _, _, [] => true
  | i, pos, segment :: rest =>
      if segment.isEmpty then
        matchSegments count text (i + 1) pos rest
      else if i = 0 then
        segment.isPrefixOf text && matchSegments count text (i + 1) segment.length rest
      else if i = count - 1 then
        segment.isSuffixOf text && !decide (text.length - segment.length < pos) &&
          matchSegments count text (i + 1) pos rest
      else
        match findSubslice (text.drop pos) segment with
        | some found =>
            matchSegments count text (i + 1) (pos + (found + segment.length)) rest
        | none => false

end Segments

/-- `modalias_pattern_match`. -/
def modaliasPatternMatch (pattern modalias : String) : Bool :=
  if pattern = "*" then true
  else
    let segments := (utf8 pattern).splitOn '*'.toUInt8
    if segments = [[]] then modalias.isEmpty
    else matchSegments segments.length (utf8 modalias) 0 0 segments

example : modaliasPatternMatch "pci:v00008086d*" "pci:v00008086d000010D3" = true := by decide

example : modaliasPatternMatch "usb:*p0002*" "usb:v1D6Bp0001d0515" = false := by decide

end MissionOs.Driverd
