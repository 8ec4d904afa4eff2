import MissionOs.Rust.PathText

/-!
# The directories of the system

`mission_dir` of `paths.rs`, which puts a component behind the root of the system's own data,
and the directories that are found with it.  The root is `/mission`, or what the environment
says.

The component is looked through before it is joined: a `..`, a root or a prefix is refused.
What is left are names, and `missionDir_below_root` says that they come behind the names of
the root, whatever the two texts look like.
-/

namespace MissionOs.Core

open MissionOs.Rust

/-- `MISSION_ROOT`. -/
def missionRoot : String := "/mission"

/-- `ENV_MISSION_ROOT`. -/
def envMissionRoot : String := "MISSION_ROOT"

/-- `Error`, as far as it is returned here, with its code. -/
inductive PathError where
  | invalidArgument (message : String)
deriving DecidableEq, Repr

/-- Why a segment is refused, if it is. -/
def refusalOf : Component → Option String
  | .parentDir => some "path component contains '..' traversal: "
  | .windowsPrefix _ => some "path component contains Windows prefix: "
  | .rootDir => some "path component is absolute: "
  | _ => none

/-- `validate_component`: the first segment that is refused is reported. -/
def validateComponent (component : String) : Except PathError String :=
  match (pathComponents component).findSome? refusalOf with
  | some reason => .error (.invalidArgument (reason ++ component))
  | none => .ok component

/-- `env_override`.  The environment gives the texts of the variables that have one. -/
def envOverride (env : String → Option String) (envVar fallback : String) : String :=
  match env envVar with
  | some val => if val ≠ "" then val else fallback
  | none => fallback

/-- The root of the system's data. -/
def rootDir (env : String → Option String) : String := envOverride env envMissionRoot missionRoot

/-- `mission_dir`. -/
def missionDir (env : String → Option String) (component : String) : Except PathError String := do
  let component ← validateComponent component
  return pushText (rootDir env) component

/-- `package_cache`. -/
def packageCache (env : String → Option String) : Except PathError String :=
  missionDir env "packages"

/-- `snapshots`. -/
def snapshots (env : String → Option String) : Except PathError String :=
  missionDir env "snapshots"

/-- `update_cache`. -/
def updateCache (env : String → Option String) : Except PathError String :=
  missionDir env "updates"

/-- `driver_store`. -/
def driverStore (env : String → Option String) : Except PathError String :=
  missionDir env "drivers"

/-! ## What is accepted -/

/-- A component that may be joined: no `..`, no root and no prefix. -/
def IsSafe (component : String) : Prop :=
  ∀ c ∈ pathComponents component,
    c ≠ .parentDir ∧ c ≠ .rootDir ∧ ∀ text, c ≠ .windowsPrefix text

/-- On Unix, where there are no prefixes, it is relative and has no `..`. -/
theorem isSafe_iff {component : String} :
    IsSafe component ↔
      Component.parentDir ∉ pathComponents component ∧ component.toList.head? ≠ some '/' := by
  rw [ne_eq, ← rootDir_mem_pathComponents]
  constructor
  · intro h
    exact ⟨fun hmem => (h _ hmem).1 rfl, fun hmem => (h _ hmem).2.1 rfl⟩
  · intro h c hc
    refine ⟨fun heq => h.1 (heq ▸ hc), fun heq => h.2 (heq ▸ hc), ?_⟩
    intro text heq
    exact windowsPrefix_not_mem_pathComponents component text (heq ▸ hc)

theorem refusalOf_eq_none_iff {c : Component} :
    refusalOf c = none ↔ c ≠ .parentDir ∧ c ≠ .rootDir ∧ ∀ text, c ≠ .windowsPrefix text := by
  cases c <;> simp [refusalOf]

theorem validateComponent_eq_ok_iff {component path : String} :
    validateComponent component = .ok path ↔ IsSafe component ∧ path = component := by
  have hnone : (pathComponents component).findSome? refusalOf = none ↔ IsSafe component := by
    rw [List.findSome?_eq_none_iff]
    simp only [refusalOf_eq_none_iff, IsSafe]
  rw [← hnone, validateComponent]
  cases (pathComponents component).findSome? refusalOf with
  | none => simp [eq_comm]
  | some reason => simp

theorem missionDir_eq_ok_iff {env : String → Option String} {component path : String} :
    missionDir env component = .ok path ↔
      IsSafe component ∧ path = pushText (rootDir env) component := by
  rw [missionDir, bind_eq_ok_iff]
  constructor
  · intro h
    obtain ⟨component', hvalid, hpath⟩ := h
    obtain ⟨hsafe, rfl⟩ := validateComponent_eq_ok_iff.mp hvalid
    cases hpath
    exact ⟨hsafe, rfl⟩
  · intro h
    obtain ⟨hsafe, rfl⟩ := h
    exact ⟨component, validateComponent_eq_ok_iff.mpr ⟨hsafe, rfl⟩, rfl⟩

/-- The root is never the empty text. -/
theorem rootDir_ne_empty (env : String → Option String) : rootDir env ≠ "" := by
  unfold rootDir envOverride
  split
  · split_ifs with hval
    · exact hval
    · decide
  · decide

/-! ## Where the result lies -/

/-- A safe component adds its names to the components of the root. -/
theorem pathComponents_of_isSafe (env : String → Option String) {component : String}
    (h : IsSafe component) :
    pathComponents (pushText (rootDir env) component) =
      pathComponents (rootDir env) ++ (normalNames component).map .normal := by
  obtain ⟨hup, hrel⟩ := isSafe_iff.mp h
  rw [pathComponents_pushText (rootDir_ne_empty env) hrel, bodyOf_eq_map_normal hup]

theorem filterMap_name?_map_normal (names : List String) :
    (names.map Component.normal).filterMap Component.name? = names := by
  rw [List.filterMap_map]
  exact List.filterMap_some

/-- It leads below the root. -/
theorem resolve_of_isSafe (env : String → Option String) {component : String}
    (h : IsSafe component) :
    (Path.new (rootDir env)).resolve <+:
      (Path.new (pushText (rootDir env) component)).resolve :=
  resolve_isPrefix (pathComponents_of_isSafe env h) (dots_not_mem_normalNames component)

/-- The directories that the library names itself are found, whatever the root is. -/
theorem directories_below_root (env : String → Option String) :
    ∀ dir ∈ [packageCache, snapshots, updateCache, driverStore], ∃ path, dir env = .ok path ∧
      (Path.new (rootDir env)).resolve <+: (Path.new path).resolve := by
  have hvalid : ∀ component ∈ ["packages", "snapshots", "updates", "drivers"],
      validateComponent component = .ok component := by decide
  have hfound : ∀ component ∈ ["packages", "snapshots", "updates", "drivers"],
      ∃ path, missionDir env component = .ok path ∧
        (Path.new (rootDir env)).resolve <+: (Path.new path).resolve := by
    intro component hmem
    have hsafe := (validateComponent_eq_ok_iff.mp (hvalid component hmem)).1
    exact ⟨_, missionDir_eq_ok_iff.mpr ⟨hsafe, rfl⟩, resolve_of_isSafe env hsafe⟩
  intro dir hdir
  simp only [List.mem_cons, List.not_mem_nil, or_false] at hdir
  rcases hdir with rfl | rfl | rfl | rfl
  · exact hfound "packages" (by decide)
  · exact hfound "snapshots" (by decide)
  · exact hfound "updates" (by decide)
  · exact hfound "drivers" (by decide)

/-- `mission_dir` accepts what has no `..`, no root and no prefix, and nothing else.  The
components of what it returns are those of the root and then the names of the component: a
walk along it goes down from the root and never leaves it. -/
theorem missionDir_below_root (env : String → Option String) (component : String) :
    ((∃ path, missionDir env component = .ok path) ↔ IsSafe component) ∧
      ∀ path, missionDir env component = .ok path →
        normalNames path = normalNames (rootDir env) ++ normalNames component ∧
        pathComponents path =
          pathComponents (rootDir env) ++ (normalNames component).map .normal ∧
        (Path.new (rootDir env)).resolve <+: (Path.new path).resolve := by
  constructor
  · constructor
    · intro h
      obtain ⟨path, hpath⟩ := h
      exact (missionDir_eq_ok_iff.mp hpath).1
    · intro hsafe
      exact ⟨_, missionDir_eq_ok_iff.mpr ⟨hsafe, rfl⟩⟩
  · intro path hpath
    obtain ⟨hsafe, rfl⟩ := missionDir_eq_ok_iff.mp hpath
    have hcomponents := pathComponents_of_isSafe env hsafe
    have hnames : normalNames (pushText (rootDir env) component) =
        normalNames (rootDir env) ++ normalNames component := by
      rw [normalNames, hcomponents, List.filterMap_append, filterMap_name?_map_normal]
      rfl
    exact ⟨hnames, hcomponents, resolve_of_isSafe env hsafe⟩

end MissionOs.Core
