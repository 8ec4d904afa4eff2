import MissionOs.Driverd.Matcher
import MissionOs.Rust.Cut
import MissionOs.Rust.Words

/-!
# The features of the kernel

`detect_kernel_features` reads the configuration of the running kernel, and `check_kernel_features`
compares it with what a driver requires.  `SetIn` says when a text sets a feature, without the
scanner; `features_decided` says what the check answers, by the files alone.  `/proc/config.gz` has
no part in it: it is read and never decompressed.

`ConfigLine.text` is a line as the build of a kernel writes it.  Such a configuration is read as it
was written (`features_written`): neither a comment nor a quoted value is mistaken for an option
that is enabled.
-/

namespace MissionOs.Driverd

open MissionOs.Rust

/-! ## The scanner -/

/-- `std::fs`, as far as the detection reads: `none` where reading fails. -/
structure SystemFiles where
  read : String → Option Bytes
  readToString : String → Option (List Char)

/-- `decompress_gzip`. -/
def decompressGzip (_data : Bytes) : Option (List Char) := none

/-- How the name of an option begins. -/
def configStart : List Char := "CONFIG_".toList

/-- What one line enables. -/
def enabledFeature (line : List Char) : Option String :=
  let line := trim line
  match splitAtFirst '=' line with
  | (_, none) => none
  | (configName, some value) =>
      if configStart.isPrefixOf line && (value = ['y'] || value = ['m']) then
        some (String.ofList configName)
      else none

/-- The loop over the lines of a configuration. -/
def featuresOf (content : List Char) : List String := (lines content).filterMap enabledFeature

namespace SystemFiles

variable (files : SystemFiles)

/-- The release of the running kernel, or nothing. -/
def kernelRelease : List Char :=
  ((files.readToString "/proc/sys/kernel/osrelease").map trim).getD []

/-- The configuration at a path. -/
def configAt (path : String) : Option (List Char) :=
  if ".gz".toList.isSuffixOf path.toList then (files.read path).bind decompressGzip
  else files.readToString (path ++ String.ofList files.kernelRelease)

/-- The loop over the paths, with the features found so far. -/
def detectFrom : List String → List String → List String
  | features, [] => features
  | features, path :: rest =>
      match files.configAt path with
      | none => detectFrom features rest
      | some content =>
          let features := features ++ featuresOf content
          if features.isEmpty then detectFrom features rest else features

/-- `detect_kernel_features`. -/
def detectKernelFeatures : List String := files.detectFrom [] ["/proc/config.gz", "/boot/config-"]

/-- `SystemInfo::detect`, for an architecture. -/
def detect (arch : String) : SystemInfo where
  kernelVersion :=
    ((files.readToString "/proc/sys/kernel/osrelease").map fun s => String.ofList (trim s)).getD
      "unknown"
  architecture := arch
  kernelFeatures := files.detectKernelFeatures

end SystemFiles

/-! ## What a configuration sets -/

/-- A line sets a feature: it is the name with `=y` or `=m`, but for white space around it. -/
def Sets (line : List Char) (feature : String) : Prop :=
  configStart <+: feature.toList ∧ '=' ∉ feature.toList ∧
    (trim line = feature.toList ++ ['=', 'y'] ∨ trim line = feature.toList ++ ['=', 'm'])

/-- A line of the text sets the feature. -/
def SetIn (text : List Char) (feature : String) : Prop := ∃ line ∈ lines text, Sets line feature

/-- A beginning without the mark of a text that has one stands before the mark. -/
theorem isPrefix_of_notMem {mark : Char} {start before after : List Char} (hmark : mark ∉ start)
    (h : start <+: before ++ mark :: after) : start <+: before := by
  rcases Nat.lt_or_ge before.length start.length with hlt | hle
  · have hbegin : before ++ [mark] <+: before ++ mark :: after := by
      rw [List.prefix_append_right_inj]
      exact List.prefix_append [mark] after
    have hmem := List.prefix_of_prefix_length_le hbegin h (by simpa using Nat.succ_le_of_lt hlt)
    exact absurd (hmem.subset (by simp)) hmark
  · exact List.prefix_of_prefix_length_le h (List.prefix_append _ _) hle

theorem enabledFeature_eq_some_iff {line : List Char} {feature : String} :
    enabledFeature line = some feature ↔ Sets line feature := by
  obtain ⟨hbefore, hwhole⟩ := splitAtFirst_spec '=' (trim line)
  simp only [enabledFeature]
  constructor
  · intro h
    rcases hsplit : splitAtFirst '=' (trim line) with ⟨configName, _ | value⟩
    · rw [hsplit] at h
      cases h
    · rw [hsplit] at h hbefore hwhole
      replace hwhole : trim line = configName ++ '=' :: value := hwhole
      obtain ⟨hstart, hname⟩ := Option.ite_none_right_eq_some.mp h
      rw [Bool.and_eq_true, List.isPrefixOf_iff_prefix, Bool.or_eq_true, decide_eq_true_eq,
        decide_eq_true_eq] at hstart
      obtain ⟨hpre, hvalue⟩ := hstart
      obtain rfl := Option.some_inj.mp hname
      rw [Sets, String.toList_ofList]
      rw [hwhole] at hpre
      refine ⟨isPrefix_of_notMem (by decide) hpre, hbefore, ?_⟩
      rcases hvalue with rfl | rfl
      · exact Or.inl hwhole
      · exact Or.inr hwhole
  · rintro ⟨hconfig, hname, hline⟩
    have hstart (value : List Char) (h : trim line = feature.toList ++ '=' :: value) :
        configStart.isPrefixOf (trim line) = true := by
      rw [List.isPrefixOf_iff_prefix, h]
      exact hconfig.trans (List.prefix_append _ _)
    have hcut (value : List Char) (h : trim line = feature.toList ++ '=' :: value) :
        splitAtFirst '=' (trim line) = (feature.toList, some value) := by
      rw [h]
      exact splitAtFirst_append hname (some value)
    rcases hline with h | h
    · rw [hcut ['y'] h, hstart ['y'] h]
      exact congrArg some String.ofList_toList
    · rw [hcut ['m'] h, hstart ['m'] h]
      exact congrArg some String.ofList_toList

theorem mem_featuresOf {text : List Char} {feature : String} :
    feature ∈ featuresOf text ↔ SetIn text feature := by
  rw [featuresOf, List.mem_filterMap]
  simp only [enabledFeature_eq_some_iff]
  rfl

/-! ## What the check answers -/

/-- The configuration of the running kernel. -/
def SystemFiles.kernelConfig (files : SystemFiles) : Option (List Char) :=
  files.readToString ("/boot/config-" ++ String.ofList files.kernelRelease)

/-- Only the file in `/boot` is ever used. -/
theorem detectKernelFeatures_eq (files : SystemFiles) :
    files.detectKernelFeatures = (files.kernelConfig.map featuresOf).getD [] := by
  have hgz : files.configAt "/proc/config.gz" = none := by
    rw [SystemFiles.configAt, if_pos (by decide)]
    cases files.read "/proc/config.gz" <;> rfl
  have hboot : files.configAt "/boot/config-" = files.kernelConfig := if_neg (by decide)
  rw [SystemFiles.detectKernelFeatures, SystemFiles.detectFrom, hgz]
  show files.detectFrom [] ["/boot/config-"] = _
  rw [SystemFiles.detectFrom, hboot]
  cases files.kernelConfig with
  | none => rfl
  | some content =>
      show (if ([] ++ featuresOf content).isEmpty then files.detectFrom _ [] else _) = _
      rw [SystemFiles.detectFrom, ite_self]
      rfl

/-- The configuration of the running kernel enables the feature. -/
def SystemFiles.Enables (files : SystemFiles) (feature : String) : Prop :=
  ∃ text, files.kernelConfig = some text ∧ SetIn text feature

theorem mem_detectKernelFeatures {files : SystemFiles} {feature : String} :
    feature ∈ files.detectKernelFeatures ↔ files.Enables feature := by
  rw [detectKernelFeatures_eq, SystemFiles.Enables]
  cases files.kernelConfig with
  | none => simp
  | some text => simp [mem_featuresOf]

section Check

variable {matcher : HardwareMatcher} {driver : DriverEntry}

theorem checkKernelFeatures_eq_allPresent_iff :
    matcher.checkKernelFeatures driver = .allPresent ↔
      ∀ feature ∈ driver.id.kernelCompat.requiredFeatures,
        feature ∈ matcher.system.kernelFeatures := by
  rw [HardwareMatcher.checkKernelFeatures]
  cases hrequired : driver.id.kernelCompat.requiredFeatures with
  | nil => simp
  | cons first rest =>
      cases hpresent : matcher.system.kernelFeatures with
      | nil => exact iff_of_false (by simp) fun h => List.not_mem_nil (h first List.mem_cons_self)
      | cons feature features =>
          simp only [List.isEmpty_cons, Bool.false_eq_true, if_false, List.isEmpty_iff,
            List.filter_eq_nil_iff, Bool.not_eq_true', Bool.not_eq_false, List.contains_iff_mem]
          split_ifs with hall
          · exact iff_of_true rfl hall
          · exact iff_of_false nofun hall

theorem checkKernelFeatures_eq_unknown_iff :
    matcher.checkKernelFeatures driver = .unknown ↔
      driver.id.kernelCompat.requiredFeatures ≠ [] ∧ matcher.system.kernelFeatures = [] := by
  rw [HardwareMatcher.checkKernelFeatures]
  cases hrequired : driver.id.kernelCompat.requiredFeatures with
  | nil => simp
  | cons first rest =>
      cases hpresent : matcher.system.kernelFeatures with
      | nil => simp
      | cons feature features =>
          simp only [List.isEmpty_cons, Bool.false_eq_true, if_false]
          split_ifs <;> simp

theorem checkKernelFeatures_eq_missing_iff {missing : List String} :
    matcher.checkKernelFeatures driver = .missing missing ↔
      missing ≠ [] ∧ matcher.system.kernelFeatures ≠ [] ∧
        missing = driver.id.kernelCompat.requiredFeatures.filter
          fun feature => !matcher.system.kernelFeatures.contains feature := by
  rw [HardwareMatcher.checkKernelFeatures]
  cases hrequired : driver.id.kernelCompat.requiredFeatures with
  | nil => exact iff_of_false (by simp) fun h => h.1 h.2.2
  | cons first rest =>
      cases hpresent : matcher.system.kernelFeatures with
      | nil => simp
      | cons feature features =>
          simp only [List.isEmpty_cons, Bool.false_eq_true, if_false, List.isEmpty_iff]
          split_ifs with hnone
          · rw [hnone]
            exact iff_of_false nofun fun h => h.1 h.2.2
          · rw [FeatureCheckResult.missing.injEq]
            constructor
            · rintro rfl
              exact ⟨hnone, List.cons_ne_nil _ _, rfl⟩
            · exact fun h => h.2.2.symm

end Check

/-- The answer of the check for the required kernel features, by the configuration of the running
kernel.  All are present if each is enabled; what is missing is told in the order in which it is
required; and nothing is known of a kernel whose configuration cannot be read, or enables
nothing. -/
theorem features_decided (files : SystemFiles) (arch : String) (driver : DriverEntry) :
    let check := (⟨files.detect arch⟩ : HardwareMatcher).checkKernelFeatures driver
    let required := driver.id.kernelCompat.requiredFeatures
    (check = .allPresent ↔ ∀ feature ∈ required, files.Enables feature) ∧
      (check = .unknown ↔ required ≠ [] ∧ ∀ feature, ¬ files.Enables feature) ∧
      ∀ missing, check = .missing missing ↔
        missing ≠ [] ∧ (∃ feature, files.Enables feature) ∧
          ∃ p : String → Bool, (∀ feature, p feature = true ↔ ¬ files.Enables feature) ∧
            missing = required.filter p := by
  intro check required
  have hmem (feature : String) : feature ∈ (files.detect arch).kernelFeatures ↔
      files.Enables feature := mem_detectKernelFeatures
  have hnone : (files.detect arch).kernelFeatures = [] ↔ ∀ feature, ¬ files.Enables feature := by
    rw [List.eq_nil_iff_forall_not_mem]
    exact forall_congr' fun feature => not_congr (hmem feature)
  have hnot (feature : String) :
      (!(files.detect arch).kernelFeatures.contains feature) = true ↔ ¬ files.Enables feature := by
    rw [Bool.not_eq_true', ← Bool.not_eq_true, List.contains_iff_mem, hmem]
  refine ⟨?_, ?_, fun missing => ?_⟩
  · rw [checkKernelFeatures_eq_allPresent_iff]
    exact forall₂_congr fun feature _ => hmem feature
  · rw [checkKernelFeatures_eq_unknown_iff]
    exact and_congr_right fun _ => hnone
  · rw [checkKernelFeatures_eq_missing_iff]
    apply and_congr_right
    intro _
    rw [ne_eq, hnone, not_forall_not]
    apply and_congr_right
    intro _
    constructor
    · intro heq
      exact ⟨_, hnot, heq⟩
    · rintro ⟨p, hp, rfl⟩
      apply List.filter_congr
      intro feature _
      rw [Bool.eq_iff_iff, hp, hnot]

/-! ## Configurations as they are written -/

/-- The value of an option of the kernel. -/
inductive OptionValue where
  | yes
  | module
  | unset
  | text (s : List Char)
  | number (n : Int)
  | hex (digits : List Char)
deriving DecidableEq, Repr

/-- An option with its value, which fits on one line. -/
structure KernelOption where
  name : List Char
  value : OptionValue
  start : configStart <+: name
  plain : ∀ c ∈ name, c ≠ '=' ∧ isWhitespace c = false
  oneLine : ∀ s, value = .text s → '\n' ∉ s
  hexDigits : ∀ digits, value = .hex digits → ∀ c ∈ digits, isHexDigit c = true

namespace KernelOption

/-- Whether the option is in the kernel, or a module of it. -/
def enabled (o : KernelOption) : Bool := o.value = .yes || o.value = .module

/-- What is written after the name of an option that is set. -/
def written : OptionValue → List Char
  | .yes => ['y']
  | .module => ['m']
  | .unset => []
  | .text s => '"' :: s ++ ['"']
  | .number (.ofNat n) => Nat.toDigits 10 n
  | .number (.negSucc n) => '-' :: Nat.toDigits 10 (n + 1)
  | .hex digits => '0' :: 'x' :: digits

/-- The line of an option. -/
def line (o : KernelOption) : List Char :=
  if o.value = .unset then "# ".toList ++ o.name ++ " is not set".toList
  else o.name ++ '=' :: written o.value

theorem notMem_name (o : KernelOption) : '=' ∉ o.name := fun hmem => (o.plain '=' hmem).1 rfl

theorem exists_name (o : KernelOption) : ∃ rest, o.name = 'C' :: rest := by
  obtain ⟨rest, hrest⟩ := o.start
  exact ⟨_, hrest.symm⟩

/-- A number does not look like a letter. -/
theorem toDigits_ne_singleton (n : Nat) {c : Char} (hc : c.isDigit = false) :
    Nat.toDigits 10 n ≠ [c] := by
  intro heq
  have hdigit := (isDecimal_toDigits n).2 c (heq ▸ List.mem_singleton_self c)
  rw [hc] at hdigit
  cases hdigit

theorem written_eq_yes_iff {v : OptionValue} : written v = ['y'] ↔ v = .yes := by
  fun_cases written v with
  | case5 n => exact iff_of_false (toDigits_ne_singleton n (by decide)) nofun
  | _ => simp

theorem written_eq_module_iff {v : OptionValue} : written v = ['m'] ↔ v = .module := by
  fun_cases written v with
  | case5 n => exact iff_of_false (toDigits_ne_singleton n (by decide)) nofun
  | _ => simp

theorem getLast_toDigits (n : Nat) :
    ∃ c, (Nat.toDigits 10 n).getLast? = some c ∧ isWhitespace c = false := by
  obtain ⟨hne, hdigits⟩ := isDecimal_toDigits n
  refine ⟨_, List.getLast?_eq_some_getLast hne, ?_⟩
  exact isWhitespace_of_isDigit (hdigits _ (List.getLast_mem hne))

/-- What is written ends in a letter, a quote or a digit. -/
theorem getLast_written (o : KernelOption) (h : o.value ≠ .unset) :
    ∃ c, (written o.value).getLast? = some c ∧ isWhitespace c = false := by
  cases hvalue : o.value with
  | yes => exact ⟨'y', rfl, by decide⟩
  | module => exact ⟨'m', rfl, by decide⟩
  | unset => exact absurd hvalue h
  | text s => exact ⟨'"', List.getLast?_concat, by decide⟩
  | number n =>
      cases n with
      | ofNat n => exact getLast_toDigits n
      | negSucc n =>
          obtain ⟨c, hc, hspace⟩ := getLast_toDigits (n + 1)
          exact ⟨c, by rw [written, List.getLast?_cons, hc]; rfl, hspace⟩
  | hex digits =>
      rcases List.eq_nil_or_concat digits with rfl | ⟨before, c, rfl⟩
      · exact ⟨'x', rfl, by decide⟩
      · have hdigit := o.hexDigits _ hvalue c (by simp)
        refine ⟨c, ?_, isWhitespace_of_isHexDigit hdigit⟩
        have hsplit : written (.hex (before.concat c)) = '0' :: 'x' :: before ++ [c] := by
          simp [written]
        rw [hsplit, List.getLast?_concat]

/-- A line begins with a letter or the mark of a comment. -/
theorem head_line (o : KernelOption) : ∃ c, o.line.head? = some c ∧ isWhitespace c = false := by
  obtain ⟨rest, hname⟩ := o.exists_name
  rw [line]
  split_ifs
  · exact ⟨'#', rfl, by decide⟩
  · exact ⟨'C', by rw [hname]; rfl, by decide⟩

theorem getLast_line (o : KernelOption) :
    ∃ c, o.line.getLast? = some c ∧ isWhitespace c = false := by
  rw [line]
  split_ifs with hunset
  · exact ⟨'t', by rw [List.getLast?_append]; rfl, by decide⟩
  · obtain ⟨c, hc, hspace⟩ := o.getLast_written hunset
    refine ⟨c, ?_, hspace⟩
    rw [List.getLast?_append, List.getLast?_cons, hc]
    rfl

/-- White space would be trimmed, but there is none. -/
theorem trim_line (o : KernelOption) : trim o.line = o.line := by
  obtain ⟨first, hfirst, hfirstspace⟩ := o.head_line
  obtain ⟨last, hlast, hlastspace⟩ := o.getLast_line
  apply trim_eq_self
  · intro c hc
    rw [hfirst, Option.some_inj] at hc
    exact hc ▸ hfirstspace
  · intro c hc
    rw [hlast, Option.some_inj] at hc
    exact hc ▸ hlastspace

/-- A line is cut at the first mark in one way only. -/
theorem append_mark_inj {mark : Char} {a b s t : List Char} (ha : mark ∉ a) (hb : mark ∉ b)
    (h : a ++ mark :: s = b ++ mark :: t) : a = b ∧ s = t := by
  have hleft : splitAtFirst mark (a ++ mark :: s) = (a, some s) := splitAtFirst_append ha (some s)
  have hright : splitAtFirst mark (b ++ mark :: t) = (b, some t) := splitAtFirst_append hb (some t)
  rw [h, hright, Prod.mk.injEq, Option.some_inj] at hleft
  exact ⟨hleft.1.symm, hleft.2.symm⟩

/-- The line of an option sets the feature of its name, and only if the option is enabled. -/
theorem sets_line_iff (o : KernelOption) (feature : String) :
    Sets o.line feature ↔ o.enabled = true ∧ o.name = feature.toList := by
  rw [Sets, trim_line, enabled, Bool.or_eq_true, decide_eq_true_eq, decide_eq_true_eq]
  by_cases hunset : o.value = .unset
  · rw [line, if_pos hunset, hunset]
    refine iff_of_false ?_ (by simp)
    rintro ⟨⟨rest, hrest⟩, -, hline⟩
    rw [← hrest] at hline
    rcases hline with h | h
    · cases h
    · cases h
  · rw [line, if_neg hunset]
    constructor
    · rintro ⟨-, hname, hline⟩
      rcases hline with h | h
      · obtain ⟨heq, hvalue⟩ := append_mark_inj o.notMem_name hname h
        exact ⟨Or.inl (written_eq_yes_iff.mp hvalue), heq⟩
      · obtain ⟨heq, hvalue⟩ := append_mark_inj o.notMem_name hname h
        exact ⟨Or.inr (written_eq_module_iff.mp hvalue), heq⟩
    · rintro ⟨hvalue, hname⟩
      rw [← hname]
      refine ⟨o.start, o.notMem_name, ?_⟩
      rcases hvalue with hvalue | hvalue
      · rw [hvalue]
        exact Or.inl rfl
      · rw [hvalue]
        exact Or.inr rfl

/-- An option takes one line. -/
theorem feed_notMem_line (o : KernelOption) : '\n' ∉ o.line := by
  have hname : '\n' ∉ o.name := by
    intro hmem
    have hspace := (o.plain '\n' hmem).2
    rw [show isWhitespace '\n' = true from by decide] at hspace
    cases hspace
  have hdigits (n : Nat) : '\n' ∉ Nat.toDigits 10 n :=
    not_mem_of_isDecimal (isDecimal_toDigits n) (by decide)
  rw [line]
  split_ifs with hunset
  · simp [hname]
  · cases hvalue : o.value with
    | text s => simp [hname, written, o.oneLine s hvalue]
    | number n => cases n <;> simp [hname, written, hdigits]
    | hex digits =>
        have hmem : '\n' ∉ digits := fun hmem =>
          absurd (o.hexDigits digits hvalue '\n' hmem) (by decide)
        simp [hname, written, hmem]
    | _ => simp [hname, written]

/-- Nothing of a line is taken for its ending. -/
theorem getLast_line_ne (o : KernelOption) : o.line.getLast? ≠ some '\r' := by
  intro hreturn
  obtain ⟨c, hc, hspace⟩ := o.getLast_line
  rw [hreturn, Option.some_inj] at hc
  rw [← hc] at hspace
  exact absurd hspace (by decide)

theorem enabledFeature_line (o : KernelOption) :
    enabledFeature o.line = if o.enabled then some (String.ofList o.name) else none := by
  ext feature
  rw [enabledFeature_eq_some_iff, sets_line_iff]
  constructor
  · rintro ⟨henabled, hname⟩
    rw [if_pos henabled, hname, String.ofList_toList]
  · intro h
    obtain ⟨henabled, hname⟩ := Option.ite_none_right_eq_some.mp h
    obtain rfl := Option.some_inj.mp hname
    exact ⟨henabled, String.toList_ofList.symm⟩

end KernelOption

/-- A line of a configuration: an option, a comment or nothing. -/
inductive ConfigLine where
  | option (o : KernelOption)
  | comment (text : List Char) (oneLine : '\n' ∉ text ∧ '\r' ∉ text)
  | blank

namespace ConfigLine

/-- The text of a line. -/
def text : ConfigLine → List Char
  | option o => o.line
  | comment text _ => '#' :: text
  | blank => []

/-- The option of a line, if it is enabled. -/
def enabled? : ConfigLine → Option KernelOption
  | option o => if o.enabled then some o else none
  | _ => none

/-- A comment sets nothing. -/
theorem enabledFeature_comment (text : List Char) : enabledFeature ('#' :: text) = none := by
  by_contra hne
  obtain ⟨feature, hfeature⟩ := Option.ne_none_iff_exists'.mp hne
  obtain ⟨⟨rest, hrest⟩, -, hline⟩ := enabledFeature_eq_some_iff.mp hfeature
  have hhead : (trim ('#' :: text)).head? = some '#' := head?_trim_cons (by decide)
  rw [← hrest] at hline
  rcases hline with h | h
  · rw [h] at hhead
    cases hhead
  · rw [h] at hhead
    cases hhead

theorem enabledFeature_text (l : ConfigLine) :
    enabledFeature l.text = l.enabled?.map fun o => String.ofList o.name := by
  cases l with
  | option o =>
      rw [text, o.enabledFeature_line, enabled?]
      split_ifs <;> rfl
  | comment text _ => exact enabledFeature_comment text
  | blank => rfl

/-- A line is one line. -/
theorem text_oneLine (l : ConfigLine) : '\n' ∉ l.text ∧ l.text.getLast? ≠ some '\r' := by
  cases l with
  | option o => exact ⟨o.feed_notMem_line, o.getLast_line_ne⟩
  | comment text oneLine =>
      refine ⟨by simp [ConfigLine.text, oneLine.1], fun hreturn => ?_⟩
      rcases List.mem_cons.mp (List.mem_of_getLast? hreturn) with h | h
      · cases h
      · exact oneLine.2 h
  | blank => exact ⟨List.not_mem_nil, nofun⟩

/-- Of a configuration as it is written, the options that are built in or modules are read, in the
order in which they stand. -/
theorem features_written (config : List ConfigLine) :
    featuresOf (textOfLines (config.map text)) =
      (config.filterMap enabled?).map fun o => String.ofList o.name := by
  have hlines : lines (textOfLines (config.map text)) = config.map text := by
    apply lines_textOfLines
    rw [List.forall_mem_map]
    exact fun l _ => l.text_oneLine
  rw [featuresOf, hlines, List.filterMap_map, List.map_filterMap]
  exact List.filterMap_congr fun l _ => l.enabledFeature_text

end ConfigLine

end MissionOs.Driverd
