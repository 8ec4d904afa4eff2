import Mathlib.Data.List.Nodup
import MissionOs.Driverd.Source
import MissionOs.Lib.FirstMatch

/-!
# Looking sources up

`from_configs` judges the ids of the sources after it trimmed them, and keeps them as they
were written.  So no two sources of a registry have the same validated id, but a lookup with
the validated id misses a source whose id was written with spaces around it.
-/

namespace MissionOs.Driverd

open MissionOs.Rust MissionOs.Lib

/-! ## Validated ids -/

/-- A validated id is the trimmed text. -/
theorem eq_trim_of_new {text id : String} (h : SourceId.new text = .ok id) :
    id = String.ofList (trim text.toList) := by
  simp only [SourceId.new] at h
  split_ifs at h
  exact (Except.ok.inj h).symm

/-- The validated ids of the sources that pass the loop: none was seen, and no two agree. -/
theorem exists_ids_of_checkConfigs {seen : List String} {configs : List SourceConfig}
    (h : checkConfigs seen configs = .ok ()) :
    ∃ ids : List String, (configs.map fun c => SourceId.new c.id) = ids.map .ok ∧
      ids.Nodup ∧ ∀ id ∈ ids, id ∉ seen := by
  induction configs generalizing seen with
  | nil => exact ⟨[], rfl, List.nodup_nil, by simp⟩
  | cons config rest ih =>
      obtain ⟨-, -, h⟩ := bind_eq_ok_iff.mp h
      obtain ⟨id, hid, h⟩ := bind_eq_ok_iff.mp h
      split_ifs at h with hseen
      · cases h
      obtain ⟨ids, hmap, hnodup, hfresh⟩ := ih h
      have hid_fresh : id ∉ ids := by
        intro hmem
        exact hfresh id hmem List.mem_cons_self
      refine ⟨id :: ids, ?_, List.nodup_cons.mpr ⟨hid_fresh, hnodup⟩, ?_⟩
      · rw [List.map_cons, hid, hmap, List.map_cons]
      · intro id' hmem
        rcases List.mem_cons.mp hmem with rfl | hmem
        · simpa using hseen
        · intro hold
          exact hfresh id' hmem (List.mem_cons_of_mem id hold)

namespace SourceRegistry

variable {registry : SourceRegistry} {config other : SourceConfig}

theorem fromConfigs_eq_ok_iff {configs : List SourceConfig} :
    fromConfigs configs = .ok registry ↔ registry.sources = configs := by
  unfold fromConfigs
  constructor
  · intro h
    split at h
    · cases h
      rfl
    · cases h
  · intro h
    subst h
    split
    · rfl
    · rename_i e herror
      rw [registry.accepted] at herror
      cases herror

/-- Every source of a registry has a validated id. -/
theorem exists_new_eq_ok (h : config ∈ registry.sources) :
    ∃ id, SourceId.new config.id = .ok id := by
  obtain ⟨ids, hmap, -⟩ := exists_ids_of_checkConfigs registry.accepted
  have hmem := List.mem_map_of_mem (f := fun c => SourceId.new c.id) h
  rw [hmap] at hmem
  obtain ⟨id, -, hid⟩ := List.mem_map.mp hmem
  exact ⟨id, hid.symm⟩

/-- No two sources of a registry have the same validated id. -/
theorem eq_of_new_eq (h : config ∈ registry.sources) (hother : other ∈ registry.sources)
    (hid : SourceId.new other.id = SourceId.new config.id) : other = config := by
  obtain ⟨ids, hmap, hnodup, -⟩ := exists_ids_of_checkConfigs registry.accepted
  have hdistinct : (registry.sources.map fun c => SourceId.new c.id).Nodup := by
    rw [hmap]
    exact hnodup.map fun _ _ => Except.ok.inj
  exact List.inj_on_of_nodup_map hdistinct hother h hid

/-! ## The lookups -/

/-- The three lookups with `id` find `config`, and no other source has that validated id. -/
structure FindsBy (registry : SourceRegistry) (id : String) (config : SourceConfig) : Prop where
  get_source : registry.getSource id = some config
  is_source_enabled : registry.isSourceEnabled id = config.enabled
  resolve_source : ∀ (pathExists : String → Bool) (debug : String → String),
    registry.resolveSource pathExists debug id =
      if config.enabled then config.resolve pathExists debug else .error (notResolved id)
  no_other : ∀ other ∈ registry.sources, SourceId.new other.id = .ok id → other = config

/-- Under the id that a source is stored with, the lookups find it. -/
theorem findsBy_of_mem (h : config ∈ registry.sources)
    (hid : SourceId.new config.id = .ok config.id) : registry.FindsBy config.id config := by
  have hunique : ∀ other ∈ registry.sources, other.id = config.id → other = config := by
    intro other hother heq
    exact eq_of_new_eq h hother (by rw [heq])
  constructor
  · show registry.sources.find? (fun s => s.id == config.id) = some config
    apply find?_eq_some_of_unique h (beq_self_eq_true config.id)
    intro other hother heq
    exact hunique other hother (beq_iff_eq.mp heq)
  · show (registry.sources.any fun s => s.id == config.id && s.enabled) = config.enabled
    rw [Bool.eq_iff_iff, List.any_eq_true]
    constructor
    · intro hany
      obtain ⟨other, hother, hfound⟩ := hany
      obtain ⟨heq, henabled⟩ := Bool.and_eq_true_iff.mp hfound
      rw [← hunique other hother (beq_iff_eq.mp heq)]
      exact henabled
    · intro henabled
      exact ⟨config, h, by rw [beq_self_eq_true, henabled, Bool.and_self]⟩
  · intro pathExists debug
    unfold resolveSource
    by_cases henabled : config.enabled = true
    · have hfind : (registry.sources.find? fun s => s.id == config.id && s.enabled) =
          some config := by
        apply find?_eq_some_of_unique h (by rw [beq_self_eq_true, henabled, Bool.and_self])
        intro other hother hfound
        exact hunique other hother (beq_iff_eq.mp (Bool.and_eq_true_iff.mp hfound).1)
      rw [hfind, if_pos henabled]
    · have hfind : (registry.sources.find? fun s => s.id == config.id && s.enabled) = none := by
        rw [List.find?_eq_none]
        intro other hother hfound
        obtain ⟨heq, hother_enabled⟩ := Bool.and_eq_true_iff.mp hfound
        rw [hunique other hother (beq_iff_eq.mp heq)] at hother_enabled
        exact henabled hother_enabled
      rw [hfind, if_neg henabled]
  · intro other hother hnew
    exact eq_of_new_eq h hother (by rw [hnew, hid])

/-- The lookups with the validated id of an accepted source find it exactly if the id was
written without spaces around it. -/
theorem findsBy_new_iff {configs : List SourceConfig} {registry : SourceRegistry}
    (hregistry : fromConfigs configs = .ok registry) {config : SourceConfig}
    (h : config ∈ configs) :
    (∃ id, SourceId.new config.id = .ok id ∧ registry.FindsBy id config) ↔
      trim config.id.toList = config.id.toList := by
  rw [← fromConfigs_eq_ok_iff.mp hregistry] at h
  obtain ⟨id, hid⟩ := exists_new_eq_ok h
  constructor
  · intro hfinds
    obtain ⟨id', hid', hfinds⟩ := hfinds
    have hfound := List.find?_some hfinds.get_source
    have htrim : config.id = String.ofList (trim config.id.toList) := by
      rw [← eq_trim_of_new hid', beq_iff_eq.mp hfound]
    have htext := congrArg String.toList htrim
    rw [String.toList_ofList] at htext
    exact htext.symm
  · intro htrimmed
    have htrim := eq_trim_of_new hid
    rw [htrimmed, String.ofList_toList] at htrim
    subst htrim
    exact ⟨config.id, hid, findsBy_of_mem h hid⟩

/-- The source of the official repository is found under its validated id. -/
theorem findsBy_new_missionSource :
    (∃ id, SourceId.new missionSource.id = .ok id ∧ default.FindsBy id missionSource) ↔
      trim missionSource.id.toList = missionSource.id.toList :=
  findsBy_new_iff (fromConfigs_eq_ok_iff.mpr rfl) List.mem_cons_self

/-- The source of the official repository, with its id after a space. -/
def spacedSource : SourceConfig :=
  { missionSource with id := " mission" }

/-- A registry of `spacedSource` alone is accepted, and no lookup with the validated id finds the
source. -/
theorem not_findsBy_spacedSource :
    ∃ registry : SourceRegistry, fromConfigs [spacedSource] = .ok registry ∧
      SourceId.new spacedSource.id = .ok "mission" ∧ ¬ registry.FindsBy "mission" spacedSource := by
  refine ⟨⟨[spacedSource], by decide⟩, fromConfigs_eq_ok_iff.mpr rfl, by decide, ?_⟩
  intro h
  exact absurd h.get_source (by decide)

end SourceRegistry

end MissionOs.Driverd
