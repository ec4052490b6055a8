/-
Settings as arguments. What can be set is written `--name=value`, one argument for each value (`Settings.arguments`),
and a command that is asked for like this is carried out with just these settings (`ofArguments_arguments`). Reading
goes from the left, so each kind of argument is shown to be read away in front of whatever follows.
-/
import TieredOptions.CommandLine.Arguments

namespace TieredOptions.CommandLine

/-! ## Writing -/

/-- a setting with its value, in one argument -/
def Setting.argument (setting : Setting) (value : String) : String := "--" ++ setting.name ++ "=" ++ value

/-- arguments that ask for a command with some settings -/
def Settings.arguments (s : Settings) (verb : Verb) : List String :=
  verb.name :: (s.files.map Setting.config.argument ++ (s.assignments.map Setting.assign.argument ++
    (s.sect.toList.map Setting.sect.argument ++ (s.output.toList.map Setting.output.argument ++
      if s.json then ["--json"] else []))))

/-- Does a command take what is set about its output? -/
def Settings.TakenBy (s : Settings) : Verb → Prop
  | .explain => s.output ≠ some ""
  | .verify => s.output = none ∧ s.json = false

/-! ## One argument -/

/-- an argument with two hyphens and something after them, up to the first equals sign -/
theorem Argument.ofText_long {text : String} {name value : List Char}
    (h : text.toList = '-' :: '-' :: (name ++ '=' :: value)) (hname : ∀ c ∈ name, (c != '=') = true) :
    Argument.ofText text = .long (String.ofList name) (some (String.ofList value)) := by
  have htake : (name ++ '=' :: value).takeWhile (· != '=') = name := by
    rw [List.takeWhile_append_of_pos hname]
    simp
  have hdrop : (name ++ '=' :: value).dropWhile (· != '=') = '=' :: value := by
    rw [List.dropWhile_append_of_pos hname]
    simp
  unfold Argument.ofText
  rw [h]
  -- at least the equals sign stands after the hyphens
  cases hcs : name ++ '=' :: value with
  | nil => simp at hcs
  | cons c cs =>
    rw [hcs] at htake hdrop
    simp only [htake, hdrop]

theorem Argument.ofText_argument (setting : Setting) (value : String) :
    Argument.ofText (setting.argument value) = .long setting.name (some value) := by
  have htext : (setting.argument value).toList = '-' :: '-' :: (setting.name.toList ++ '=' :: value.toList) := by
    simp [Setting.argument]
  have hname : ∀ c ∈ setting.name.toList, (c != '=') = true := List.all_eq_true.1 (by cases setting <;> decide)
  rw [ofText_long htext hname, String.ofList_toList, String.ofList_toList]

theorem find?_name {verb : Verb} {setting : Setting} (h : setting ∈ Setting.all verb) :
    (Setting.all verb).find? (·.name == setting.name) = some setting := by
  cases verb <;> revert setting <;> decide

variable {verb : Verb} {s s' : Settings} {setting : Setting}

/-- an argument for a setting is read away, and the setting carried out -/
theorem readSettings_argument (h : setting ∈ Setting.all verb) (hv : setting.hasValue = true) {value : String}
    (hput : s.put value setting = .ok s') (rest : List String) :
    readSettings verb s (setting.argument value :: rest) = readSettings verb s' rest := by
  have hsetting : (Argument.long setting.name (some value)).setting? verb = some (setting, some value) := by
    simp only [Argument.setting?, find?_name h, Option.map_some]
  rw [readSettings.eq_def]
  simp only [Argument.ofText_argument, hsetting]
  simp only [reduceCtorEq, if_false, hv, if_true, hput]

/-! ## All arguments -/

/-- Arguments for a setting that adds up are read away, one after the other. `extend` carries out some of them. -/
theorem readSettings_each (h : setting ∈ Setting.all verb) (hv : setting.hasValue = true)
    (extend : Settings → List String → Settings) (hnil : ∀ s, extend s [] = s)
    (hcons : ∀ s v vs, extend (extend s [v]) vs = extend s (v :: vs)) {values : List String}
    (hput : ∀ s : Settings, ∀ v ∈ values, s.put v setting = .ok (extend s [v])) (s : Settings) (rest : List String) :
    readSettings verb s (values.map setting.argument ++ rest) = readSettings verb (extend s values) rest := by
  induction values generalizing s with
  | nil => rw [hnil, List.map_nil, List.nil_append]
  | cons v vs ih =>
    have hvs : ∀ s : Settings, ∀ w ∈ vs, s.put w setting = .ok (extend s [w]) :=
      fun s w hw => hput s w (List.mem_cons_of_mem _ hw)
    rw [List.map_cons, List.cons_append, readSettings_argument h hv (hput s v List.mem_cons_self), ih hvs, hcons]

/-- an argument for a setting that stands once at most, if there is one, is read away -/
theorem readSettings_optional (h : setting ∈ Setting.all verb) (hv : setting.hasValue = true) (s s' : Settings)
    {value : Option String} (hnone : value = none → s' = s) (hput : ∀ v, value = some v → s.put v setting = .ok s')
    (rest : List String) :
    readSettings verb s (value.toList.map setting.argument ++ rest) = readSettings verb s' rest := by
  cases value with
  | none =>
    rw [hnone rfl]
    rfl
  | some v => exact readSettings_argument h hv (hput v rfl) rest

theorem readSettings_json (s : Settings) (hs : s.json = false) (rest : List String) :
    readSettings .explain s ("--json" :: rest) = readSettings .explain { s with json := true } rest := by
  have hform : Argument.ofText "--json" = .long "json" none := by decide
  have hsetting : (Argument.long "json" none).setting? .explain = some (.json, none) := by decide
  rw [readSettings.eq_def]
  simp only [hform, hsetting]
  simp [Setting.hasValue, Settings.put, hs]

/-- **What is written as arguments is what is read**: the arguments that settings are written as ask for a command with
    just these settings, if the command takes them and no path is empty. -/
theorem ofArguments_arguments (hfiles : ∀ path ∈ s.files, path ≠ "") (h : s.TakenBy verb) :
    Invocation.ofArguments (s.arguments verb) = .run verb s := by
  obtain ⟨files, assignments, sect, json, output⟩ := s
  have hverb : Verb.ofName? verb.name = some verb := by cases verb <;> decide
  have hshared : ∀ setting ∈ [Setting.config, .assign, .sect], setting ∈ Setting.all verb := by cases verb <;> decide
  have hpaths : ∀ s : Settings, ∀ path ∈ files, s.put path .config = .ok { s with files := s.files ++ [path] } :=
    fun s path hpath => if_neg (hfiles path hpath)
  have hread (rest : List String) : readSettings verb .initial (files.map Setting.config.argument ++
      (assignments.map Setting.assign.argument ++ (sect.toList.map Setting.sect.argument ++ rest))) =
      readSettings verb ⟨files, assignments, sect, false, none⟩ rest := by
    rw [readSettings_each (hshared .config (by decide)) rfl (fun s paths => { s with files := s.files ++ paths })
        (by simp) (by simp) hpaths,
      readSettings_each (hshared .assign (by decide)) rfl
        (fun s texts => { s with assignments := s.assignments ++ texts }) (by simp) (by simp) (fun _ _ _ => rfl),
      readSettings_optional (hshared .sect (by decide)) rfl _ ⟨files, assignments, sect, false, none⟩]
    · rintro rfl
      rfl
    · rintro v rfl
      rfl
  unfold Settings.arguments Invocation.ofArguments
  simp only [hverb, hread]
  cases verb with
  | verify =>
    obtain ⟨houtput, hjson⟩ : output = none ∧ json = false := h
    subst houtput hjson
    rfl
  | explain =>
    have houtput : output ≠ some "" := h
    rw [readSettings_optional (by decide) rfl _ ⟨files, assignments, sect, false, output⟩]
    · cases json with
      | false => rfl
      | true => exact readSettings_json _ rfl []
    · rintro rfl
      rfl
    · rintro path rfl
      exact if_neg fun hpath => houtput (congrArg some hpath)

end TieredOptions.CommandLine
