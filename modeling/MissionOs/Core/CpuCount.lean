import MissionOs.Lib.RangeList
import MissionOs.Rust.Cut
import MissionOs.Rust.Decimal

/-!
# The number of processors

`cpu_count` of `sysinfo.rs`, which reads the list of online processors that the kernel keeps
in `/sys/devices/system/cpu/online`, and the lists that the kernel writes there.

The function looks at the last number of the list and adds one.  A list with a gap, such as
the `0,2,4` of its own comment, has fewer processors than that: `countsOnline_iff` says that
no number may be missing.
-/

namespace MissionOs.Core

open MissionOs.Lib MissionOs.Rust

/-! ## The function -/

/-- The number at the end of a list, as `cpu_count` looks for it. -/
def rangeEnd (contents : String) : Option UInt64 := do
  let trimmed := trim contents.toList
  let rangeStr ← (trimmed.splitOn ',').getLast?
  let endStr ← (rangeStr.splitOn '-').getLast?
  (parseU64 endStr).toOption

/-- The number of lines of `/proc/cpuinfo` that begin with `processor`. -/
def processorLines (cpuinfo : String) : Nat :=
  ((lines cpuinfo.toList).filter fun line => "processor".toList.isPrefixOf line).length

/-- What `cpu_count` returns without a list of online processors. -/
def fallbackCount (cpuinfo : Option String) : Nat :=
  match cpuinfo with
  | some contents =>
      let count := processorLines contents
      if count > 0 then count else 1
  | none => 1

/-- `cpu_count`, with the contents of the two files that it reads, if they can be read;
`none` where it panics, which is at an overflow in a debug build. -/
def cpuCount (debug : Bool) (online cpuinfo : Option String) : Option Nat :=
  match online.bind rangeEnd with
  | some count => if debug ∧ count.toNat + 1 = 2 ^ 64 then none else some (count + 1).toNat
  | none => some (fallbackCount cpuinfo)

/-! ## The lists of the kernel -/

/-- An entry of a list of processors: an id, or a range of ids. -/
inductive CpuItem where
  | single (id : Nat)
  | range (ids : NatRange)
deriving DecidableEq, Repr

namespace CpuItem

/-- The ids of an entry, as a range. -/
def toRange : CpuItem → NatRange
  | .single id => ⟨id, id, Nat.le_refl id⟩
  | .range ids => ids

/-- An entry as it is written. -/
def text : CpuItem → List Char
  | .single id => Nat.toDigits 10 id
  | .range ids => Nat.toDigits 10 ids.first ++ '-' :: Nat.toDigits 10 ids.last

end CpuItem

/-- A list of processors, in increasing order. -/
structure CpuList where
  items : List CpuItem
  ascending : Ascending (items.map CpuItem.toRange)

namespace CpuList

/-- The ids that a list stands for. -/
def ids (l : CpuList) : List Nat := membersOf (l.items.map CpuItem.toRange)

/-- A list as the kernel prints it, on a line of its own. -/
def text (l : CpuList) : String :=
  String.ofList ([','].intercalate (l.items.map CpuItem.text) ++ ['\n'])

end CpuList

/-! ## What is read from a list -/

/-- An entry is made of digits and dashes. -/
theorem CpuItem.mem_text {item : CpuItem} {c : Char} (h : c ∈ item.text) :
    c.isDigit = true ∨ c = '-' := by
  have hdigit {n : Nat} (hc : c ∈ Nat.toDigits 10 n) : c.isDigit = true :=
    (isDecimal_toDigits n).2 c hc
  cases item with
  | single id => exact Or.inl (hdigit h)
  | range ids =>
      rcases List.mem_append.mp h with h | h
      · exact Or.inl (hdigit h)
      · rcases List.mem_cons.mp h with h | h
        · exact Or.inr h
        · exact Or.inl (hdigit h)

/-- No comma is in an entry. -/
theorem CpuItem.comma_not_mem_text (item : CpuItem) : ',' ∉ item.text := by
  intro h
  rcases CpuItem.mem_text h with h | h
  · cases h
  · cases h

/-- The part of an entry behind its dash, if it has one, is its last id. -/
theorem CpuItem.getLast?_splitOn_text (item : CpuItem) :
    (item.text.splitOn '-').getLast? = some (Nat.toDigits 10 item.toRange.last) := by
  have hdash (n : Nat) : '-' ∉ Nat.toDigits 10 n :=
    not_mem_of_isDecimal (isDecimal_toDigits n) rfl
  cases item with
  | single id =>
      rw [text, List.splitOn_eq_singleton (hdash id)]
      rfl
  | range ids =>
      rw [text, List.splitOn_append_cons_self_of_not_mem (hdash ids.first),
        List.splitOn_eq_singleton (hdash ids.last)]
      rfl

/-- The line feed is trimmed, and nothing else. -/
theorem CpuList.trim_text (l : CpuList) :
    trim l.text.toList = [','].intercalate (l.items.map CpuItem.text) := by
  generalize hbody : [','].intercalate (l.items.map CpuItem.text) = body
  have hspace : ∀ c ∈ body, isWhitespace c = false := by
    intro c hc
    rw [← hbody] at hc
    rcases mem_intercalate hc with rfl | ⟨piece, hpiece, hc⟩
    · rfl
    · obtain ⟨item, -, rfl⟩ := List.mem_map.mp hpiece
      rcases CpuItem.mem_text hc with hdigit | rfl
      · exact isWhitespace_of_isDigit hdigit
      · rfl
  rw [text, String.toList_ofList, hbody]
  exact trim_append_singleton hspace rfl

/-- What `cpu_count` finds at the end of a list: its last id, if it fits. -/
theorem rangeEnd_text {l : CpuList} {item : CpuItem} (hlast : l.items.getLast? = some item) :
    rangeEnd l.text =
      if item.toRange.last < 2 ^ 64 then some (UInt64.ofNat item.toRange.last) else none := by
  have hne : l.items.map CpuItem.text ≠ [] := by
    intro hnil
    rw [List.map_eq_nil_iff.mp hnil] at hlast
    cases hlast
  have hcomma : ∀ piece ∈ l.items.map CpuItem.text, ',' ∉ piece := by
    intro piece hpiece
    obtain ⟨item, -, rfl⟩ := List.mem_map.mp hpiece
    exact item.comma_not_mem_text
  have hsplit : ((trim l.text.toList).splitOn ',').getLast? = some item.text := by
    rw [l.trim_text, List.splitOn_intercalate ',' hcomma hne, List.getLast?_map, hlast]
    rfl
  have hread : rangeEnd l.text = (parseU64 (Nat.toDigits 10 item.toRange.last)).toOption := by
    simp only [rangeEnd, hsplit, Option.bind_eq_bind, Option.bind_some,
      item.getLast?_splitOn_text]
  rw [hread]
  split_ifs with hfits
  · have hparse := parseU64_toDigits (UInt64.ofNat item.toRange.last)
    rw [UInt64.toNat_ofNat_of_lt' hfits] at hparse
    rw [hparse]
    rfl
  · cases hparse : parseU64 (Nat.toDigits 10 item.toRange.last) with
    | error e => rfl
    | ok n =>
        have hplus : '+' ∉ Nat.toDigits 10 item.toRange.last :=
          not_mem_of_isDecimal (isDecimal_toDigits _) rfl
        have hvalue := (isDecimal_of_parseU64 hparse hplus).2
        rw [decimal_toDigits] at hvalue
        have hlt := n.toNat_lt
        omega

/-- In a list without entries it finds nothing. -/
theorem rangeEnd_text_nil {l : CpuList} (hnil : l.items = []) : rangeEnd l.text = none := by
  rw [CpuList.text, hnil]
  rfl

/-! ## The number that is returned -/

/-- The fallback is never zero. -/
theorem fallbackCount_pos (cpuinfo : Option String) : 0 < fallbackCount cpuinfo := by
  cases cpuinfo with
  | none => exact Nat.one_pos
  | some contents =>
      show 0 < if processorLines contents > 0 then processorLines contents else 1
      split_ifs with hpos
      · exact hpos
      · exact Nat.one_pos

/-- A list that gives an id gives its successor, if that fits as well. -/
theorem cpuCount_of_lt {debug : Bool} {l : CpuList} {item : CpuItem} {cpuinfo : Option String}
    (hlast : l.items.getLast? = some item) (hfits : item.toRange.last + 1 < 2 ^ 64) :
    cpuCount debug (some l.text) cpuinfo = some (item.toRange.last + 1) := by
  have hlt : item.toRange.last < 2 ^ 64 := by omega
  have hvalue : (UInt64.ofNat item.toRange.last).toNat = item.toRange.last :=
    UInt64.toNat_ofNat_of_lt' hlt
  have hone : (1 : UInt64).toNat = 1 := rfl
  rw [cpuCount, Option.bind_some, rangeEnd_text hlast, if_pos hlt]
  show (if debug ∧ _ then none else _) = _
  rw [if_neg (by omega), UInt64.toNat_add, hvalue, hone, Nat.mod_eq_of_lt hfits]

/-- The greatest number that fits has no successor. -/
theorem cpuCount_of_max {debug : Bool} {l : CpuList} {item : CpuItem} {cpuinfo : Option String}
    (hlast : l.items.getLast? = some item) (hmax : item.toRange.last + 1 = 2 ^ 64) :
    cpuCount debug (some l.text) cpuinfo = if debug then none else some 0 := by
  have hlt : item.toRange.last < 2 ^ 64 := by omega
  have hvalue : item.toRange.last = 2 ^ 64 - 1 := by omega
  have hlast64 : (UInt64.ofNat (2 ^ 64 - 1)).toNat + 1 = 2 ^ 64 := by decide
  have hwrap : (UInt64.ofNat (2 ^ 64 - 1) + 1).toNat = 0 := by decide
  rw [cpuCount, Option.bind_some, rangeEnd_text hlast, if_pos hlt, hvalue]
  show (if debug ∧ _ then none else _) = _
  rw [hlast64, hwrap]
  simp

/-- A list whose last id does not fit gives the fallback. -/
theorem cpuCount_of_ge {debug : Bool} {l : CpuList} {item : CpuItem} {cpuinfo : Option String}
    (hlast : l.items.getLast? = some item) (hge : 2 ^ 64 ≤ item.toRange.last) :
    cpuCount debug (some l.text) cpuinfo = some (fallbackCount cpuinfo) := by
  rw [cpuCount, Option.bind_some, rangeEnd_text hlast, if_neg (by omega)]

/-- The last id of a list is that of its last entry. -/
theorem CpuList.getLast?_ids {l : CpuList} {item : CpuItem} (hlast : l.items.getLast? = some item) :
    l.ids.getLast? = some item.toRange.last := by
  rw [CpuList.ids, getLast?_membersOf, List.getLast?_map, hlast]
  rfl

theorem CpuList.length_ids_eq_iff {l : CpuList} {item : CpuItem}
    (hlast : l.items.getLast? = some item) :
    l.ids.length = item.toRange.last + 1 ↔ ∀ id ≤ item.toRange.last, id ∈ l.ids := by
  apply l.ascending.length_membersOf_eq_iff
  rw [List.getLast?_map, hlast]
  rfl

/-- A list without entries gives the fallback, which is not its number of ids. -/
theorem cpuCount_of_nil {debug : Bool} {l : CpuList} (cpuinfo : Option String)
    (hnil : l.items = []) : cpuCount debug (some l.text) cpuinfo ≠ some l.ids.length := by
  have hids : l.ids.length = 0 := by
    rw [CpuList.ids, hnil]
    rfl
  have hpos := fallbackCount_pos cpuinfo
  rw [cpuCount, Option.bind_some, rangeEnd_text_nil hnil, hids]
  intro h
  have hzero : fallbackCount cpuinfo = 0 := Option.some.inj h
  omega

/-- `cpu_count` returns the number of ids of a list exactly if no id is missing below the
last one.  (Should the last id not fit into a `usize`, the number of lines of the other file
has to be right.) -/
theorem countsOnline_iff (debug : Bool) (l : CpuList) (cpuinfo : Option String) :
    cpuCount debug (some l.text) cpuinfo = some l.ids.length ↔
      ∃ last, l.ids.getLast? = some last ∧
        ((last + 1 < 2 ^ 64 ∧ ∀ id ≤ last, id ∈ l.ids) ∨
          (2 ^ 64 ≤ last ∧ fallbackCount cpuinfo = l.ids.length)) := by
  cases hitem : l.items.getLast? with
  | none =>
      have hnil : l.items = [] := List.getLast?_eq_none_iff.mp hitem
      have hids : l.ids = [] := by
        rw [CpuList.ids, hnil]
        rfl
      apply iff_of_false (cpuCount_of_nil cpuinfo hnil)
      rintro ⟨last, hlast, -⟩
      rw [hids] at hlast
      cases hlast
  | some item =>
      have hend := CpuList.getLast?_ids hitem
      have hcomplete := CpuList.length_ids_eq_iff hitem
      have hpos : 0 < l.ids.length := List.length_pos_of_mem (List.mem_of_getLast? hend)
      simp only [hend, Option.some.injEq, exists_eq_left']
      rcases Nat.lt_trichotomy (item.toRange.last + 1) (2 ^ 64) with hlt | hmax | hgt
      · rw [cpuCount_of_lt hitem hlt, Option.some.injEq, eq_comm, hcomplete]
        constructor
        · intro hall
          exact Or.inl ⟨hlt, hall⟩
        · rintro (⟨-, hall⟩ | ⟨hge, -⟩)
          · exact hall
          · omega
      · rw [cpuCount_of_max hitem hmax]
        constructor
        · intro h
          cases debug with
          | true => cases h
          | false =>
              have hzero : 0 = l.ids.length := Option.some.inj h
              omega
        · rintro (⟨hlt, -⟩ | ⟨hge, -⟩)
          · omega
          · omega
      · rw [cpuCount_of_ge hitem (by omega), Option.some.injEq]
        constructor
        · intro heq
          exact Or.inr ⟨by omega, heq⟩
        · rintro (⟨hlt, -⟩ | ⟨-, heq⟩)
          · omega
          · exact heq

/-- Of three processors with gaps between them. -/
def gappedList : CpuList := ⟨[.single 0, .single 2, .single 4], by decide⟩

/-- The list of the comment is counted as five. -/
theorem gapped_counted_as_five :
    gappedList.text = "0,2,4\n" ∧ gappedList.ids = [0, 2, 4] ∧
      cpuCount false (some gappedList.text) (some "processor\t: 0\n") = some 5 ∧
      cpuCount false (some gappedList.text) (some "processor\t: 0\n") ≠
        some gappedList.ids.length := by
  decide

end MissionOs.Core
