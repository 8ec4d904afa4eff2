import MissionOs.Lib.FileTree

/-!
# Listings of directories

What is in a directory, with what is in the directories in it, in the order in which a reader comes
upon the names.  `item` is what stands under a name, `node` what stands at a place below the
directory.  In a `Folder` no name stands twice in one directory.
-/

namespace MissionOs.Lib

/-- What is in a directory. -/
inductive Listing (β : Type) where
  | nil
  | file (name : String) (content : β) (rest : Listing β)
  | dir (name : String) (entries : Listing β) (rest : Listing β)

/-- What stands under a name. -/
inductive Item (β : Type) where
  | file (content : β)
  | dir (entries : Listing β)

namespace Listing

variable {β : Type}

def names : Listing β → List String
  | nil => []
  | file name _ rest => name :: rest.names
  | dir name _ rest => name :: rest.names

def item : Listing β → String → Option (Item β)
  | nil, _ => none
  | file name c rest, key => if key = name then some (.file c) else rest.item key
  | dir name entries rest, key => if key = name then some (.dir entries) else rest.item key

def isfile (l : Listing β) (name : String) : Bool :=
  match l.item name with
  | some (.file _) => true
  | _ => false

/-- What stands at a place below the directory. -/
def node : Listing β → Place → Option (FileNode β)
  | nil, _ => none
  | file name c rest, p => if p = [name] then some (.file c) else rest.node p
  | dir _ _ _, [] => none
  | dir name entries rest, key :: p =>
      if key = name then if p = [] then some .dir else entries.node p else rest.node (key :: p)

end Listing

/-- What stands at a place below what stands under a name. -/
def Item.node {β : Type} : Item β → Place → Option (FileNode β)
  | file c, p => if p = [] then some (.file c) else none
  | dir entries, p => if p = [] then some .dir else entries.node p

namespace Listing

variable {β : Type}

/-- No name stands twice in one directory. -/
def Distinct : Listing β → Prop
  | nil => True
  | file name _ rest => name ∉ rest.names ∧ rest.Distinct
  | dir name entries rest => name ∉ rest.names ∧ entries.Distinct ∧ rest.Distinct

/-- What stands below a directory stands under one of its names. -/
theorem exists_of_node {l : Listing β} {p : Place} {n : FileNode β} (h : l.node p = some n) :
    ∃ name ∈ l.names, [name] <+: p := by
  induction l generalizing p with
  | nil => cases h
  | file name c rest ih =>
      rw [node] at h
      split_ifs at h with hp
      · exact ⟨name, List.mem_cons_self, hp ▸ List.prefix_rfl⟩
      · obtain ⟨key, hkey, hpre⟩ := ih h
        exact ⟨key, List.mem_cons_of_mem name hkey, hpre⟩
  | dir name entries rest _ ih =>
      cases p with
      | nil => cases h
      | cons key p =>
          rw [node] at h
          split_ifs at h with hkey hp
          · exact ⟨name, List.mem_cons_self, hkey ▸ List.prefix_append [key] p⟩
          · exact ⟨name, List.mem_cons_self, hkey ▸ List.prefix_append [key] p⟩
          · obtain ⟨key', hmem, hpre⟩ := ih h
            exact ⟨key', List.mem_cons_of_mem name hmem, hpre⟩

theorem node_nil (l : Listing β) : l.node [] = none := by
  cases hnode : l.node [] with
  | none => rfl
  | some n =>
      obtain ⟨name, -, hpre⟩ := exists_of_node hnode
      simp at hpre

/-- Under a name that is not in a directory nothing stands. -/
theorem node_eq_none_of_notMem {l : Listing β} {name : String} (h : name ∉ l.names) (p : Place) :
    l.node (name :: p) = none := by
  cases hnode : l.node (name :: p) with
  | none => rfl
  | some n =>
      obtain ⟨key, hkey, hpre⟩ := exists_of_node hnode
      rw [List.cons_prefix_cons] at hpre
      rw [hpre.1] at hkey
      exact absurd hkey h

/-- What stands in the rest of a listing stands in the whole. -/
theorem node_dir_of_rest {name : String} {entries rest : Listing β} {p : Place}
    {n : FileNode β} (h : name ∉ rest.names) (hp : rest.node p = some n) :
    (dir name entries rest).node p = some n := by
  obtain ⟨key, hkey, hpre⟩ := exists_of_node hp
  obtain ⟨p, rfl⟩ := hpre
  have hne : key ≠ name := fun heq => h (heq ▸ hkey)
  rw [List.singleton_append, node, if_neg hne]
  exact hp

theorem node_file_of_rest {name : String} {c : β} {rest : Listing β} {p : Place}
    {n : FileNode β} (h : name ∉ rest.names) (hp : rest.node p = some n) :
    (file name c rest).node p = some n := by
  rw [node, if_neg _, hp]
  rintro rfl
  rw [node_eq_none_of_notMem h] at hp
  cases hp

/-- What stands at a place, by the item under its first name. -/
theorem node_cons {l : Listing β} (h : l.Distinct) (name : String) (p : Place) :
    l.node (name :: p) = (l.item name).bind fun item => item.node p := by
  induction l with
  | nil => rfl
  | file key c rest ih =>
      rw [node, item]
      by_cases hname : name = key
      · subst hname
        rw [if_pos rfl, Option.bind_some, Item.node]
        by_cases hp : p = []
        · rw [if_pos (by rw [hp]), if_pos hp]
        · rw [if_neg (by simp [hp]), if_neg hp]
          exact node_eq_none_of_notMem h.1 p
      · rw [if_neg (by simp [hname]), if_neg hname]
        exact ih h.2
  | dir key entries rest _ ih =>
      rw [node, item]
      by_cases hname : name = key
      · rw [if_pos hname, if_pos hname, Option.bind_some, Item.node]
      · rw [if_neg hname, if_neg hname]
        exact ih h.2.2

theorem mem_names_of_item {l : Listing β} {name : String} {item : Item β}
    (h : l.item name = some item) : name ∈ l.names := by
  induction l with
  | nil => cases h
  | file key c rest ih =>
      rw [Listing.item] at h
      split_ifs at h with hname
      · exact hname ▸ List.mem_cons_self
      · exact List.mem_cons_of_mem key (ih h)
  | dir key entries rest _ ih =>
      rw [Listing.item] at h
      split_ifs at h with hname
      · exact hname ▸ List.mem_cons_self
      · exact List.mem_cons_of_mem key (ih h)

theorem nodup_names {l : Listing β} (h : l.Distinct) : l.names.Nodup := by
  induction l with
  | nil => exact List.nodup_nil
  | file name c rest ih => exact List.nodup_cons.mpr ⟨h.1, ih h.2⟩
  | dir name entries rest _ ih => exact List.nodup_cons.mpr ⟨h.1, ih h.2.2⟩

theorem distinct_of_item {l : Listing β} (h : l.Distinct) {name : String} {entries : Listing β}
    (hitem : l.item name = some (.dir entries)) : entries.Distinct := by
  induction l with
  | nil => cases hitem
  | file key c rest ih =>
      rw [item] at hitem
      split_ifs at hitem with hname
      · cases hitem
      · exact ih h.2 hitem
  | dir key l rest _ ih =>
      rw [item] at hitem
      split_ifs at hitem with hname
      · cases hitem
        exact h.2.1
      · exact ih h.2.2 hitem

/-- Nothing stands below a file. -/
theorem eq_nil_of_file {l : Listing β} (h : l.Distinct) {p rest : Place} {c : β} {n : FileNode β}
    (hfile : l.node p = some (.file c)) (hbelow : l.node (p ++ rest) = some n) : rest = [] := by
  induction p generalizing l with
  | nil =>
      rw [node_nil] at hfile
      cases hfile
  | cons name p ih =>
      rw [node_cons h, Option.bind_eq_some_iff] at hfile
      rw [List.cons_append, node_cons h, Option.bind_eq_some_iff] at hbelow
      obtain ⟨item, hitem, hfile⟩ := hfile
      obtain ⟨item', hitem', hbelow⟩ := hbelow
      rw [hitem, Option.some_inj] at hitem'
      subst hitem'
      cases item with
      | file c' =>
          rw [Item.node] at hbelow
          split_ifs at hbelow with hempty
          exact (List.append_eq_nil_iff.mp hempty).2
      | dir entries =>
          rw [Item.node] at hfile hbelow
          have hp : p ≠ [] := by
            rintro rfl
            cases hfile
          rw [if_neg hp] at hfile
          rw [if_neg (by simp [hp])] at hbelow
          exact ih (distinct_of_item h hitem) hfile hbelow

end Listing

/-- A directory in which no name stands twice. -/
structure Folder (β : Type) where
  entries : Listing β
  distinct : entries.Distinct

end MissionOs.Lib
