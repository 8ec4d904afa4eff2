import MissionOs.Driverd.Package
import MissionOs.Rust.Links

/-!
# Where accepted packages lie

`validate_package_path` compares the text of an absolute path with the beginnings of four
directories, and asks for the metadata of the file that the path leads to, with all symbolic
links followed.  So it accepts a path beside a directory whose name begins alike, and a path in
the directory that a link leads out of.

`keepsInside_iff` says that these are the only paths outside that are accepted.
-/

namespace MissionOs.Driverd

open MissionOs.Rust

/-! ## The check, with symbolic links -/

/-- `validate_package_path`, by what `std::fs::metadata` answers. -/
def validatePackagePathBy (metadata : String → Except IoError FileMetadata) (text : String) :
    ServiceResult Unit :=
  if containsText text ".." then
    .error (.invalidArgument "package path must not contain '..'")
  else if (Path.new text).absolute &&
      !(allowedPrefixes.any fun p => p.toList.isPrefixOf text.toList) then
    .error (.invalidArgument
      ("package path '" ++ text ++ "' is not in an allowed directory"))
  else
    match metadata text with
    | .error e => .error (.invalidArgument ("cannot access package path: " ++ e))
    | .ok m =>
      if m.isFile then .ok ()
      else .error (.invalidArgument "package path is not a regular file")

/-- The check of `stage_local` is the one without symbolic links. -/
theorem validatePackagePath_eq (env : StagingEnv) (fs : FileSystem) (text : String) :
    validatePackagePath env fs text = validatePackagePathBy (fileMetadata env 0 fs) text := rfl

/-- A file system with symbolic links, and how a call for metadata can fail in it. -/
structure LinkedEnv where
  fs : LinkedFs
  /-- Whether the call fails although the path leads somewhere. -/
  metadataFault : Option IoError
  /-- The error for a path that leads nowhere. -/
  missing : String → IoError
  /-- The length that is shown for what is no regular file. -/
  otherSize : Nat

namespace LinkedEnv

variable (env : LinkedEnv)

/-- `std::fs::metadata`. -/
def metadata (text : String) : Except IoError FileMetadata :=
  match env.metadataFault with
  | some e => .error e
  | none =>
    match env.fs.stat text with
    | none => .error (env.missing text)
    | some (.file data) => .ok ⟨true, data.length⟩
    | some _ => .ok ⟨false, env.otherSize⟩

/-- The check of a path in this file system. -/
def validate (text : String) : ServiceResult Unit := validatePackagePathBy env.metadata text

end LinkedEnv

/-! ## The allowed directories -/

/-- The allowed directories, by the names on the way to them. -/
def allowedDirs : List (List String) :=
  [["tmp"], ["var", "cache", "mission"], ["var", "lib", "mission"], ["etc", "mission"]]

/-- The text of the path to a directory. -/
def dirText (dir : List String) : List Char := dir.flatMap fun name => '/' :: name.toList

/-- A place is one of the allowed directories or below it. -/
def IsInside (place : List String) : Prop := ∃ dir ∈ allowedDirs, dir <+: place

/-- The text names an allowed directory, or goes on with a slash behind it. -/
def NamesInside (text : String) : Prop :=
  ∃ dir ∈ allowedDirs, text.toList = dirText dir ∨ dirText dir ++ ['/'] <+: text.toList

/-- The text begins like the path to an allowed directory. -/
def BeginsAllowed (text : String) : Prop := ∃ dir ∈ allowedDirs, dirText dir <+: text.toList

theorem allowedPrefixes_eq : allowedPrefixes.map String.toList = allowedDirs.map dirText := by
  decide

theorem beginsAllowed_iff {text : String} :
    BeginsAllowed text ↔
      (allowedPrefixes.any fun p => p.toList.isPrefixOf text.toList) = true := by
  have hmap : (allowedPrefixes.any fun p => p.toList.isPrefixOf text.toList) =
      (allowedDirs.map dirText).any fun cs => cs.isPrefixOf text.toList := by
    rw [← allowedPrefixes_eq, List.any_map]
    rfl
  rw [hmap, List.any_map, List.any_eq_true]
  simp only [Function.comp, List.isPrefixOf_iff_prefix]
  exact Iff.rfl

/-- A name in the path to a directory. -/
structure IsDirName (name : String) : Prop where
  no_slash : '/' ∉ name.toList
  ne_nil : name.toList ≠ []
  ne_dot : name.toList ≠ ['.']

theorem isDirName_of_mem {dir : List String} (h : dir ∈ allowedDirs) :
    ∀ name ∈ dir, IsDirName name := by
  intro name hname
  have hall : allowedDirs.all (fun dir => dir.all fun name =>
      !name.toList.contains '/' && name.toList ≠ [] && name.toList ≠ ['.']) = true := by decide
  have hchecked := List.all_eq_true.mp (List.all_eq_true.mp hall dir h) name hname
  simp only [Bool.and_eq_true, Bool.not_eq_true', List.contains_eq_mem, decide_eq_false_iff_not,
    decide_eq_true_eq] at hchecked
  exact ⟨hchecked.1.1, hchecked.1.2, hchecked.2⟩

section DirText

variable {dir : List String}

theorem componentsOf_name_append {name : String} (h : IsDirName name) (rest : List Char) :
    componentsOf (name.toList ++ '/' :: rest) = name :: componentsOf rest := by
  rw [componentsOf_append, componentsOf_name h.no_slash h.ne_nil h.ne_dot, String.ofList_toList]
  rfl

/-- Behind the path to a directory the components of the text go on. -/
theorem componentsOf_dirText_append (hdir : ∀ name ∈ dir, IsDirName name) (rest : List Char) :
    componentsOf (dirText dir ++ '/' :: rest) = dir ++ componentsOf rest := by
  induction dir with
  | nil => exact componentsOf_cons rest
  | cons name dir ih =>
      obtain ⟨hname, hdir⟩ := List.forall_mem_cons.mp hdir
      obtain ⟨tail, htail⟩ : ∃ tail, dirText dir ++ '/' :: rest = '/' :: tail := by
        cases dir with
        | nil => exact ⟨rest, rfl⟩
        | cons next dir => exact ⟨_, rfl⟩
      have hih := ih hdir
      rw [htail, componentsOf_cons] at hih
      have htext : dirText (name :: dir) ++ '/' :: rest = '/' :: (name.toList ++ '/' :: tail) := by
        rw [← htail, dirText, List.flatMap_cons, List.cons_append, List.cons_append,
          List.append_assoc]
        rfl
      rw [htext, componentsOf_cons, componentsOf_name_append hname, hih, List.cons_append]

theorem componentsOf_dirText (hdir : ∀ name ∈ dir, IsDirName name) :
    componentsOf (dirText dir) = dir := by
  have hslash := componentsOf_dirText_append hdir []
  rw [componentsOf_append] at hslash
  simpa [componentsOf] using hslash

theorem dirText_concat (dir : List String) (name : String) :
    dirText (dir ++ [name]) = dirText dir ++ '/' :: name.toList := by
  rw [dirText, List.flatMap_append, List.flatMap_singleton]
  rfl

/-- A text that goes on without a slash has another name in the place of the last one. -/
theorem componentsOf_dirText_extended {name : String} {c : Char} {rest : List Char}
    (hdir : ∀ name' ∈ dir ++ [name], IsDirName name') (hc : c ≠ '/') :
    ∃ sibling tail, (name.toList <+: sibling.toList ∧ sibling ≠ name) ∧
      componentsOf (dirText (dir ++ [name]) ++ c :: rest) = dir ++ sibling :: tail := by
  have hname : IsDirName name := hdir name (by simp)
  have hinit : ∀ name' ∈ dir, IsDirName name' :=
    fun name' h => hdir name' (List.mem_append_left _ h)
  have hsplit := List.takeWhile_append_dropWhile (p := fun d => decide (d ≠ '/')) (l := c :: rest)
  have hmore : (c :: rest).takeWhile (fun d => decide (d ≠ '/')) ≠ [] := by
    rw [List.takeWhile_cons_of_pos (by simpa using hc)]
    exact List.cons_ne_nil _ _
  have hslash : '/' ∉ (c :: rest).takeWhile (fun d => decide (d ≠ '/')) := by
    intro hmem
    simpa using List.mem_takeWhile_imp hmem
  generalize (c :: rest).takeWhile (fun d => decide (d ≠ '/')) = more at hsplit hmore hslash
  have hlong : '/' ∉ name.toList ++ more := by
    intro hmem
    rcases List.mem_append.mp hmem with hmem | hmem
    · exact hname.no_slash hmem
    · exact hslash hmem
  have hne : name.toList ++ more ≠ [] := by simp [hmore]
  have hdot : name.toList ++ more ≠ ['.'] := by
    intro h
    have hlength := congrArg List.length h
    have hname_length := List.length_pos_iff.mpr hname.ne_nil
    have hmore_length := List.length_pos_iff.mpr hmore
    rw [List.length_append, List.length_singleton] at hlength
    omega
  have hcomponents := componentsOf_name hlong hne hdot
  have hsibling : name.toList <+: (String.ofList (name.toList ++ more)).toList ∧
      String.ofList (name.toList ++ more) ≠ name := by
    rw [String.toList_ofList]
    refine ⟨List.prefix_append _ _, ?_⟩
    intro h
    have hlist := congrArg String.toList h
    rw [String.toList_ofList] at hlist
    exact hmore (List.append_right_eq_self.mp hlist)
  cases hrest : (c :: rest).dropWhile (fun d => decide (d ≠ '/')) with
  | nil =>
      rw [hrest, List.append_nil] at hsplit
      refine ⟨_, [], hsibling, ?_⟩
      rw [← hsplit, dirText_concat, List.append_assoc, List.cons_append,
        componentsOf_dirText_append hinit, hcomponents]
  | cons d tail =>
      have hd : d = '/' := by
        have hhead := List.head?_dropWhile_not (fun d => decide (d ≠ '/')) (c :: rest)
        rw [hrest] at hhead
        simpa using hhead
      rw [hrest, hd] at hsplit
      refine ⟨_, componentsOf tail, hsibling, ?_⟩
      rw [← hsplit, dirText_concat, List.append_assoc, List.cons_append,
        componentsOf_dirText_append hinit, ← List.append_assoc, componentsOf_append, hcomponents]
      rfl

end DirText

/-- No name on the way to an allowed directory extends the name of one. -/
theorem eq_of_begins {dir dir' : List String} {name last : String} (hdir : dir ∈ allowedDirs)
    (hname : name ∈ dir) (hdir' : dir' ∈ allowedDirs) (hlast : dir'.getLast? = some last)
    (h : last.toList <+: name.toList) : name = last := by
  have hall : allowedDirs.all (fun dir => dir.all fun name => allowedDirs.all fun dir' =>
      dir'.getLast?.all fun last => !last.toList.isPrefixOf name.toList || name = last) = true := by
    decide
  have hchecked := List.all_eq_true.mp (List.all_eq_true.mp (List.all_eq_true.mp hall dir hdir)
    name hname) dir' hdir'
  rw [hlast, Option.all_some, List.isPrefixOf_iff_prefix.mpr h, Bool.not_true,
    Bool.false_or] at hchecked
  exact of_decide_eq_true hchecked

/-- No allowed directory is above another. -/
theorem not_prefix_dropLast {dir dir' : List String} (hdir : dir ∈ allowedDirs)
    (hdir' : dir' ∈ allowedDirs) : ¬ dir' <+: dir.dropLast := by
  have hall : allowedDirs.all (fun dir => allowedDirs.all fun dir' =>
      !dir'.isPrefixOf dir.dropLast) = true := by decide
  have hchecked := List.all_eq_true.mp (List.all_eq_true.mp hall dir hdir) dir' hdir'
  intro h
  rw [List.isPrefixOf_iff_prefix.mpr h] at hchecked
  cases hchecked

/-- A place beside an allowed directory is in none. -/
theorem not_isInside_sibling {init tail : List String} {last sibling : String}
    (h : init ++ [last] ∈ allowedDirs)
    (hsibling : last.toList <+: sibling.toList ∧ sibling ≠ last) :
    ¬ IsInside (init ++ sibling :: tail) := by
  intro hinside
  obtain ⟨dir, hdir, hbegin⟩ := hinside
  have hnot : sibling ∉ dir := by
    intro hmem
    exact hsibling.2 (eq_of_begins hdir hmem h List.getLast?_concat hsibling.1)
  rcases List.prefix_or_prefix_of_prefix hbegin (List.prefix_append init (sibling :: tail))
    with habove | hbelow
  · have hdrop := not_prefix_dropLast h hdir
    rw [List.dropLast_concat] at hdrop
    exact hdrop habove
  · obtain ⟨below, rfl⟩ := hbelow
    cases below with
    | nil =>
        have hdrop := not_prefix_dropLast h hdir
        rw [List.dropLast_concat, List.append_nil] at hdrop
        exact hdrop (List.prefix_refl init)
    | cons next below =>
        have hnext := (List.prefix_append_right_inj init).mp hbegin
        have heq := (List.cons_prefix_cons.mp hnext).1
        exact hnot (List.mem_append_right _ (by rw [heq]; exact List.mem_cons_self))

/-- A text that begins like the path to an allowed directory leads into one exactly if the name
of the directory ends there. -/
theorem isInside_iff_namesInside {text : String} (h : BeginsAllowed text) :
    IsInside (componentsOf text.toList) ↔ NamesInside text := by
  constructor
  · intro hinside
    obtain ⟨dir, hdir, rest, hrest⟩ := h
    cases rest with
    | nil => exact ⟨dir, hdir, Or.inl (by rw [← hrest, List.append_nil])⟩
    | cons c rest =>
        by_cases hc : c = '/'
        · refine ⟨dir, hdir, Or.inr ?_⟩
          rw [← hrest, hc]
          exact ⟨rest, by simp⟩
        · exfalso
          have hne : dir ≠ [] := by
            intro hnil
            rw [hnil] at hdir
            exact absurd hdir (by decide)
          have hconcat := List.dropLast_append_getLast hne
          rw [← hconcat] at hdir hrest
          obtain ⟨sibling, tail, hsibling, hcomponents⟩ :=
            @componentsOf_dirText_extended dir.dropLast _ c rest (isDirName_of_mem hdir) hc
          rw [← hrest, hcomponents] at hinside
          exact not_isInside_sibling hdir hsibling hinside
  · intro hnames
    obtain ⟨dir, hdir, heq | hbegin⟩ := hnames
    · refine ⟨dir, hdir, ?_⟩
      rw [heq, componentsOf_dirText (isDirName_of_mem hdir)]
    · obtain ⟨rest, hrest⟩ := hbegin
      refine ⟨dir, hdir, ?_⟩
      rw [← hrest, List.append_assoc, List.singleton_append,
        componentsOf_dirText_append (isDirName_of_mem hdir)]
      exact List.prefix_append _ _

/-! ## What is accepted -/

namespace LinkedEnv

variable {env : LinkedEnv} {text : String}

/-- The path leads to a regular file. -/
def LeadsToFile (env : LinkedEnv) (text : String) (last : Leg) : Prop :=
  env.fs.pathLeg text = some last ∧ ∃ data, env.fs.nodeAt last.target = some (.file data)

theorem metadata_isFile_iff :
    (∃ m, env.metadata text = .ok m ∧ m.isFile = true) ↔
      env.metadataFault = none ∧ ∃ last, env.LeadsToFile text last := by
  unfold metadata LeadsToFile LinkedFs.stat
  cases env.metadataFault with
  | some e =>
      refine iff_of_false ?_ ?_
      · intro h
        obtain ⟨m, hm, -⟩ := h
        cases hm
      · intro h
        cases h.1
  | none =>
      cases hleg : env.fs.pathLeg text with
      | none =>
          refine iff_of_false ?_ ?_
          · intro h
            obtain ⟨m, hm, -⟩ := h
            cases hm
          · intro h
            obtain ⟨-, last, hlast, -⟩ := h
            cases hlast
      | some last =>
          simp only [Option.bind_some, true_and, Option.some.injEq, exists_eq_left']
          cases hnode : env.fs.nodeAt last.target with
          | none => simp
          | some node => cases node <;> simp

theorem validate_eq_ok_iff :
    env.validate text = .ok () ↔
      containsText text ".." = false ∧
        ((Path.new text).absolute = true → BeginsAllowed text) ∧
        env.metadataFault = none ∧ ∃ last, env.LeadsToFile text last := by
  rw [← metadata_isFile_iff, validate, validatePackagePathBy, beginsAllowed_iff]
  by_cases hdots : containsText text ".." = true
  · rw [if_pos hdots]
    refine iff_of_false (fun h => nomatch h) ?_
    intro h
    rw [hdots] at h
    cases h.1
  · rw [if_neg hdots]
    have hnot := Bool.eq_false_iff.mpr hdots
    by_cases hallowed : ((Path.new text).absolute &&
        !(allowedPrefixes.any fun p => p.toList.isPrefixOf text.toList)) = true
    · rw [if_pos hallowed]
      refine iff_of_false (fun h => nomatch h) ?_
      intro h
      obtain ⟨-, hbegin, -⟩ := h
      rw [Bool.and_eq_true, Bool.not_eq_true'] at hallowed
      rw [hbegin hallowed.1] at hallowed
      cases hallowed.2
    · rw [if_neg hallowed]
      have hbegin : (Path.new text).absolute = true →
          (allowedPrefixes.any fun p => p.toList.isPrefixOf text.toList) = true := by
        intro habsolute
        rw [habsolute, Bool.true_and, Bool.not_eq_true', Bool.not_eq_false] at hallowed
        exact hallowed
      cases hmetadata : env.metadata text with
      | error e =>
          refine iff_of_false (fun h => nomatch h) ?_
          intro h
          obtain ⟨-, -, m, hm, -⟩ := h
          cases hm
      | ok m =>
          show (if m.isFile then _ else _) = _ ↔ _
          by_cases hfile : m.isFile = true
          · rw [if_pos hfile]
            exact iff_of_true rfl ⟨hnot, hbegin, m, rfl, hfile⟩
          · rw [if_neg hfile]
            refine iff_of_false (fun h => nomatch h) ?_
            intro h
            obtain ⟨-, -, m', hm, hfile'⟩ := h
            cases hm
            exact hfile hfile'

/-- If an absolute path is accepted, then it and the regular file that it denotes lie in the
allowed directories. -/
def KeepsInside (env : LinkedEnv) (text : String) : Prop :=
  env.validate text = .ok () → (Path.new text).absolute = true →
    IsInside (Path.new text).components ∧
      ∃ last, env.LeadsToFile text last ∧ IsInside last.target

/-- The paths outside that pass all the checks.  They begin like an allowed directory, but the
name of the directory does not end there, or a symbolic link stands on the way and the last
leg of the walk leads out. -/
structure Escapes (env : LinkedEnv) (text : String) : Prop where
  no_fault : env.metadataFault = none
  no_dots : containsText text ".." = false
  begins : BeginsAllowed text
  leaves : ∃ last, env.LeadsToFile text last ∧
    (¬ NamesInside text ∨
      (∃ next, env.fs.walkLeg (env.fs.firstLeg text).dir (env.fs.firstLeg text).names =
        .met next) ∧ ¬ IsInside last.target)

theorem absolute_of_beginsAllowed (h : BeginsAllowed text) :
    text.toList.head? = some '/' := by
  obtain ⟨dir, hdir, rest, hrest⟩ := h
  have hall : allowedDirs.all (fun dir => (dirText dir).head? = some '/') = true := by decide
  have hhead := of_decide_eq_true (List.all_eq_true.mp hall dir hdir)
  rw [← hrest, List.head?_append, hhead]
  rfl

theorem keepsInside_iff (env : LinkedEnv) (text : String) :
    env.KeepsInside text ↔ ¬ env.Escapes text := by
  constructor
  · intro hkeeps hescapes
    obtain ⟨last, hlast, hleaves⟩ := hescapes.leaves
    have habsolute : (Path.new text).absolute = true :=
      decide_eq_true (absolute_of_beginsAllowed hescapes.begins)
    have hok := validate_eq_ok_iff.mpr
      ⟨hescapes.no_dots, fun _ => hescapes.begins, hescapes.no_fault, last, hlast⟩
    obtain ⟨hinside, last', hlast', hplace⟩ := hkeeps hok habsolute
    rw [componentsOf_new, isInside_iff_namesInside hescapes.begins] at hinside
    obtain rfl : last = last' := Option.some.inj (hlast.1.symm.trans hlast'.1)
    rcases hleaves with hnames | ⟨-, hout⟩
    · exact hnames hinside
    · exact hout hplace
  · intro hstays hok habsolute
    obtain ⟨hdots, hbegins, hfault, last, hlast⟩ := validate_eq_ok_iff.mp hok
    have hbegins := hbegins habsolute
    have hstays : ¬ (¬ NamesInside text ∨
        (∃ next, env.fs.walkLeg (env.fs.firstLeg text).dir (env.fs.firstLeg text).names =
          .met next) ∧ ¬ IsInside last.target) :=
      fun hleaves => hstays ⟨hfault, hdots, hbegins, last, hlast, hleaves⟩
    obtain ⟨hnames, hlinks⟩ := not_or.mp hstays
    have hnames := not_not.mp hnames
    have hinside := (isInside_iff_namesInside hbegins).mpr hnames
    refine ⟨hinside, last, hlast, ?_⟩
    by_cases hmet : ∃ next,
        env.fs.walkLeg (env.fs.firstLeg text).dir (env.fs.firstLeg text).names = .met next
    · by_contra hout
      exact hlinks ⟨hmet, hout⟩
    · -- Without a link the walk has one leg, and ends where the text says.
      have hleg := hlast.1
      unfold LinkedFs.pathLeg at hleg
      split_ifs at hleg with hempty
      have hself := LinkedFs.lastLeg_eq_self hleg fun next hnext => hmet ⟨next, hnext⟩
      rw [hself, LinkedFs.firstLeg,
        target_ofText (absolute_of_beginsAllowed hbegins) hdots]
      exact hinside

end LinkedEnv

/-! ## Two paths that escape -/

/-- A package beside `/tmp`, and a link in `/tmp` to a file in `/etc`. -/
def escapingFs : LinkedFs where
  node place := List.lookup place [
    (["tmp"], .dir), (["tmp", "a.ko"], .link "/etc/shadow"),
    (["etc"], .dir), (["etc", "shadow"], .file [1]),
    (["tmpfoo"], .dir), (["tmpfoo", "a.ko"], .file [2])]
  workDir := []

/-- That file system, where no call fails. -/
def escapingEnv : LinkedEnv := ⟨escapingFs, none, fun text => text, 0⟩

theorem not_isInside_of_all {place : List String}
    (h : (allowedDirs.all fun dir => !dir.isPrefixOf place) = true) : ¬ IsInside place := by
  intro hinside
  obtain ⟨dir, hdir, hbegin⟩ := hinside
  have hnot := List.all_eq_true.mp h dir hdir
  rw [List.isPrefixOf_iff_prefix.mpr hbegin] at hnot
  cases hnot

/-- Both paths are accepted. -/
theorem not_keepsInside_escapingEnv :
    (escapingEnv.validate "/tmpfoo/a.ko" = .ok () ∧ ¬ escapingEnv.KeepsInside "/tmpfoo/a.ko") ∧
      (escapingEnv.validate "/tmp/a.ko" = .ok () ∧ ¬ escapingEnv.KeepsInside "/tmp/a.ko") := by
  have hsibling : escapingEnv.validate "/tmpfoo/a.ko" = .ok () := by decide +kernel
  have hlink : escapingEnv.validate "/tmp/a.ko" = .ok () := by decide +kernel
  have hleg : escapingEnv.fs.pathLeg "/tmp/a.ko" = some ⟨[], ["etc", "shadow"]⟩ := by
    decide +kernel
  constructor
  · refine ⟨hsibling, ?_⟩
    intro h
    obtain ⟨hinside, -⟩ := h hsibling (by decide +kernel)
    exact not_isInside_of_all (by decide +kernel) hinside
  · refine ⟨hlink, ?_⟩
    intro h
    obtain ⟨-, last, hlast, hinside⟩ := h hlink (by decide +kernel)
    obtain rfl := Option.some.inj (hleg.symm.trans hlast.1)
    exact not_isInside_of_all (by decide) hinside

end MissionOs.Driverd
