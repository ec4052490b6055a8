/-
The report on grammar output in closed form. What each of the nine options comes to under a configuration is said here
without instances, caches and reads (`nameOf`, …, `keywordsOf`): what is configured, decoded at the option's type, or
else a value of its own, which may be made of what other options come to. An option made of others passes on the error
of the first that has one.

The instance that the program builds looks at nothing that is remembered (`configured_memoryless`), so its report is
that of the reference, and the reference is solved option by option (`reference_eq`). The configuration is what the
files and assignments of the command line load to, within the section. Both commands succeed exactly if every option has
a value.

Main statement: `report_closed_form`.
-/
import TieredOptions.CommandLine.Command
import TieredOptions.Proofs.Arguments
import TieredOptions.Proofs.Loading
import TieredOptions.Proofs.Transparency

namespace TieredOptions.GrammarOutput

open Config (Layered decodeAs? decodable)

/-! ## What the options come to -/

/-- a value with its tier, or why there is none -/
abbrev Setting (t : ValueType) := Except ResolveError (t.Carrier × Tier)

/-- What is configured for an option, decoded at its type. Where nothing is, the option has a value of its own. -/
def configuredOr (l : Layered) (t : ValueType) (name : String) (own : Except ResolveError t.Carrier) : Setting t :=
  match l.raw name with
  | none => own.map (·, .default)
  | some v =>
    match decodeAs? t v with
    | some x => .ok (x, .lookup)
    | none => .error (.decode name t v.compact)

section Options

variable (l : Layered)

def nameOf : Setting .string := configuredOr l .string "grammar_name" (.error (.missing "grammar_name"))

def formatOf : Setting .string := configuredOr l .string "output_format" (.ok "ebnf")

def lineWidthOf : Setting (.int .u32) := configuredOr l (.int .u32) "line_width" (.ok 80#32)

def indentWidthOf : Setting (.int .u32) := configuredOr l (.int .u32) "indent_width" (.ok 4#32)

/-- as many blanks as the indentation is wide -/
def indentOf : Setting .string := configuredOr l .string "indent" do
  let (width, _) ← indentWidthOf l
  return String.ofList (List.replicate width.toNat ' ')

/-- whether lines have a width -/
def wrapOf : Setting .bool := configuredOr l .bool "wrap" do
  let (width, _) ← lineWidthOf l
  return decide (0 < width.toNat)

/-- the extension that files of the format have -/
def extensionOf : Setting .string := configuredOr l .string "file_extension" do
  let (format, _) ← formatOf l
  if format = "ebnf" then return "ebnf"
  else if format = "iso14977" then return "txt"
  else if format = "xml" then return "xml"
  else throw (.source ("unknown output format `" ++ format ++ "` (expected one of ebnf, iso14977, xml)") [])

/-- the name of the grammar and the format; the error of the name comes first -/
def headerOf : Setting .string := configuredOr l .string "header" do
  let (name, _) ← nameOf l
  let (format, _) ← formatOf l
  return name ++ " grammar (" ++ format ++ ")"

def keywordsOf : Setting .strings := configuredOr l .strings "keywords" (.ok [])

end Options

/-- What a report says of an option: its value, its tier and the kind of layer that configures it, or the error. -/
def entry (l : Layered) {t : ValueType} (name : String) (r : Setting t) : Entry :=
  match r with
  | .ok (x, tier) =>
    let origin := if tier = .lookup then (l.originOf name).map (·.origin) else none
    ⟨name, t.name, some tier, origin, some (t.display x), none⟩
  | .error e => ⟨name, t.name, none, none, none, some e.message⟩

/-- all nine options, in order -/
def entries (l : Layered) : List Entry := [
  entry l "grammar_name" (nameOf l),
  entry l "output_format" (formatOf l),
  entry l "line_width" (lineWidthOf l),
  entry l "indent_width" (indentWidthOf l),
  entry l "indent" (indentOf l),
  entry l "wrap" (wrapOf l),
  entry l "file_extension" (extensionOf l),
  entry l "header" (headerOf l),
  entry l "keywords" (keywordsOf l)]

/-- an entry has either a value or an error -/
theorem entry_error_isNone (l : Layered) {t : ValueType} (name : String) (r : Setting t) :
    (entry l name r).error.isNone = (entry l name r).value.isSome := by
  rcases r with e | ⟨x, tier⟩ <;> rfl

/-! ## The instance -/

/-- the options of grammar output, with nothing but their defaults -/
def bare : Instance := ⟨contract, Vector.replicate 9 none, none⟩

/-- the options of grammar output under a configuration -/
def configured (l : Layered) : Instance := { bare with lookup := some l.lookup }

theorem build_configured (l : Layered) : Instance.build contract (some l.lookup) [] = .ok (configured l) := rfl

/-- Defaults read only options that are declared before theirs. -/
theorem configured_memoryless (l : Layered) : (configured l).Memoryless where
  plain := show ∀ src ∈ bare.sources, src.expr.isPlain = true by decide
  steady lookup hl := by
    cases hl
    exact Lookup.steady_steady _
  acyclic := .of_numbering (·.val) (show ∀ s, ∀ s' ∈ bare.named s, s'.val < s.val by decide)

variable (l : Layered)

/-- what the options are read as when they are computed anew -/
def readings : String → Except ResolveError Value := (configured l).readBy (configured l).reference

/-- what an option comes to where nothing is configured for it -/
def ownOf (s : contract.Slot) : Except ResolveError (contract.accessor s).type.Carrier :=
  match (contract.accessor s).default with
  | some e => e.value (readings l)
  | none => .error (.missing (contract.accessor s).name)

/-- what an option comes to -/
def settingOf (s : contract.Slot) : Setting (contract.accessor s).type :=
  configuredOr l (contract.accessor s).type (contract.accessor s).name (ownOf l s)

theorem decodable_type : ∀ s, decodable (contract.accessor s).type = true := by decide

theorem slot?_accessor : ∀ s, contract.slot? (contract.accessor s).name = some s := by decide

theorem isSecret_accessor : ∀ s, isSecret (contract.accessor s).name = false := by decide

theorem override?_configured (s : contract.Slot) : (configured l).override? s = none := Vector.getElem_replicate _

/-- every type among the options has a form in configuration -/
theorem lookedUp_eq (s : contract.Slot) :
    (configured l).lookedUp s =
      match l.raw (contract.accessor s).name with
      | none => .ok none
      | some v =>
        match decodeAs? (contract.accessor s).type v with
        | some x => .ok (some ⟨(contract.accessor s).type, x⟩)
        | none => .error (.decode (contract.accessor s).name (contract.accessor s).type v.compact) := by
  show l.opinion (contract.accessor s).info = _
  unfold Config.Layered.opinion
  rw [show l.raw (contract.accessor s).info.name = l.raw (contract.accessor s).name from rfl]
  cases l.raw (contract.accessor s).name with
  | none => rfl
  | some v =>
    show Config.decode (contract.accessor s).info v = _
    simp only [Config.decode, Accessor.info, decodable_type, Bool.not_true, Bool.false_eq_true, if_false]
    cases decodeAs? (contract.accessor s).type v <;> rfl

/-- where the lookup has no opinion, the tiers come to the default, if there is one -/
theorem candidate_own {s : contract.Slot} (h : (configured l).lookedUp s = .ok none) :
    (configured l).candidate (configured l).reference s =
      (ownOf l s).map fun x => ⟨⟨(contract.accessor s).type, x⟩, .default⟩ := by
  unfold Instance.candidate ownOf
  cases hd : (contract.accessor s).default with
  | none =>
    have hsource : ((configured l).contract.accessor s).source? = none := congrArg (Option.map _) hd
    simp only [override?_configured, h, hsource]
    rfl
  | some e =>
    have hsource : ((configured l).contract.accessor s).source? = some ⟨_, e⟩ := congrArg (Option.map _) hd
    simp only [override?_configured, h, hsource]
    show (e.value (readings l) >>= fun x => .ok (⟨_, x⟩ : Value)).map _ = _
    cases e.value (readings l) <;> rfl

/-- **The reference, option by option.** -/
theorem reference_eq (s : contract.Slot) :
    (configured l).reference s = (settingOf l s).map fun p => ⟨⟨(contract.accessor s).type, p.1⟩, p.2⟩ := by
  -- whatever the tiers come to, it has the type of the option
  have hchecked (x : (contract.accessor s).type.Carrier) (tier : Tier) :
      (configured l).checked s ⟨⟨(contract.accessor s).type, x⟩, tier⟩ = .ok ⟨⟨(contract.accessor s).type, x⟩, tier⟩ :=
    if_pos (beq_self_eq_true _)
  have hlooked := lookedUp_eq l s
  rw [(configured_memoryless l).acyclic.reference_eq s]
  unfold Instance.recompute settingOf configuredOr
  cases hraw : l.raw (contract.accessor s).name with
  | none =>
    rw [hraw] at hlooked
    rw [candidate_own l hlooked]
    cases ownOf l s with
    | error e => rfl
    | ok x => exact hchecked x .default
  | some v =>
    simp only [hraw] at hlooked ⊢
    cases hx : decodeAs? (contract.accessor s).type v with
    | none =>
      simp only [hx] at hlooked ⊢
      simp only [Instance.candidate, override?_configured, hlooked]
      rfl
    | some x =>
      simp only [hx] at hlooked ⊢
      simp only [Instance.candidate, override?_configured, hlooked]
      exact hchecked x .lookup

/-- a read of an option at its type -/
theorem readAt_eq (s : contract.Slot) :
    Expr.readAt (readings l) (contract.accessor s).type (contract.accessor s).name =
      (settingOf l s).map (·.1) := by
  have hread : readings l (contract.accessor s).name =
      (settingOf l s).map fun p => ⟨(contract.accessor s).type, p.1⟩ := by
    unfold readings Instance.readBy Instance.byName
    rw [show (configured l).contract.slot? (contract.accessor s).name = some s from slot?_accessor s]
    show ((configured l).reference s).map (·.value) = _
    rw [reference_eq]
    cases settingOf l s <;> rfl
  unfold Expr.readAt
  rw [hread]
  rcases settingOf l s with e | ⟨x, tier⟩
  · rfl
  · have hself : (⟨(contract.accessor s).type, x⟩ : Value).as? (contract.accessor s).type = some x := Value.as?_self _ _
    simp only [Except.map, bind, Except.bind, hself]
    rfl

/-! ## Option by option -/

theorem settingOf_indent : settingOf l ⟨4, by decide⟩ = indentOf l := by
  have hread : Expr.readAt (readings l) (.int .u32) "indent_width" = (indentWidthOf l).map (·.1) :=
    readAt_eq l ⟨3, by decide⟩
  refine congrArg (configuredOr l .string "indent") ?_
  show Expr.readAt (readings l) (.int .u32) "indent_width" >>= indentation = _
  rw [hread]
  rcases indentWidthOf l with e | ⟨width, tier⟩ <;> rfl

theorem settingOf_wrap : settingOf l ⟨5, by decide⟩ = wrapOf l := by
  have hread : Expr.readAt (readings l) (.int .u32) "line_width" = (lineWidthOf l).map (·.1) :=
    readAt_eq l ⟨2, by decide⟩
  refine congrArg (configuredOr l .bool "wrap") ?_
  show Expr.readAt (readings l) (.int .u32) "line_width" >>= wraps = _
  rw [hread]
  rcases lineWidthOf l with e | ⟨width, tier⟩ <;> rfl

/-- the table of formats, written out -/
theorem fileExtension_eq (format : String) :
    fileExtension format =
      if format = "ebnf" then .ok "ebnf"
      else if format = "iso14977" then .ok "txt"
      else if format = "xml" then .ok "xml"
      else .error (.source ("unknown output format `" ++ format ++ "` (expected one of ebnf, iso14977, xml)") []) := by
  have hnames : "` (expected one of " ++ (", ".intercalate (formats.map (·.1)) ++ ")") =
      "` (expected one of ebnf, iso14977, xml)" := by decide +kernel
  unfold fileExtension
  split_ifs with hebnf hiso hxml
  · subst hebnf
    rfl
  · subst hiso
    rfl
  · subst hxml
    rfl
  · have hnone : formats.lookup format = none := by
      refine List.lookup_eq_none_iff.2 fun p hp => ?_
      simp only [formats, List.mem_cons, List.not_mem_nil, or_false] at hp
      rcases hp with rfl | rfl | rfl <;> simpa
    rw [hnone, String.append_assoc, String.append_assoc, hnames]
    rfl

theorem settingOf_extension : settingOf l ⟨6, by decide⟩ = extensionOf l := by
  have hread : Expr.readAt (readings l) .string "output_format" = (formatOf l).map (·.1) :=
    readAt_eq l ⟨1, by decide⟩
  refine congrArg (configuredOr l .string "file_extension") ?_
  show Expr.readAt (readings l) .string "output_format" >>= fileExtension = _
  rw [hread]
  rcases formatOf l with e | ⟨format, tier⟩
  · rfl
  · exact fileExtension_eq format

theorem settingOf_header : settingOf l ⟨7, by decide⟩ = headerOf l := by
  have hname : Expr.readAt (readings l) .string "grammar_name" = (nameOf l).map (·.1) :=
    readAt_eq l ⟨0, by decide⟩
  have hformat : Expr.readAt (readings l) .string "output_format" = (formatOf l).map (·.1) :=
    readAt_eq l ⟨1, by decide⟩
  refine congrArg (configuredOr l .string "header") ?_
  show header.value (readings l) = _
  simp only [header, Expr.sum, List.foldl_cons, List.foldl_nil, Expr.value, hname, hformat]
  rcases nameOf l with e | ⟨name, tier⟩
  · rfl
  · rcases formatOf l with e | ⟨format, tier⟩ <;> rfl

/-! ## Reports -/

theorem referEntry_eq (s : contract.Slot) :
    (configured l).referEntry (some l) (contract.accessor s).info =
      entry l (contract.accessor s).name (settingOf l s) := by
  have href : (configured l).byName (configured l).reference (contract.accessor s).info.name =
      (settingOf l s).map fun p => ⟨⟨(contract.accessor s).type, p.1⟩, p.2⟩ := by
    unfold Instance.byName
    rw [show (configured l).contract.slot? (contract.accessor s).info.name = some s from slot?_accessor s]
    exact reference_eq l s
  unfold Instance.referEntry
  rw [href]
  rcases settingOf l s with e | ⟨x, tier⟩
  · rfl
  · have hsecret : isSecret (contract.accessor s).info.name = false := isSecret_accessor s
    have hdescribe : (contract.accessor s).info.describe ⟨(contract.accessor s).type, x⟩ =
        (contract.accessor s).type.display x := Value.describeAs_type _
    simp only [Except.map, hsecret, hdescribe]
    cases tier <;> rfl

/-- the report of the reference, entry by entry -/
theorem referReport_options (now : Instant) : ((configured l).referReport (some l) now).options = entries l := by
  have hslots : ((configured l).referReport (some l) now).options =
      contract.slots.map fun s => (configured l).referEntry (some l) (contract.accessor s).info := rfl
  simp only [hslots, referEntry_eq]
  unfold entries
  rw [← settingOf_indent, ← settingOf_wrap, ← settingOf_extension, ← settingOf_header]
  rfl

theorem entries_complete : ∀ e ∈ entries l, e.error.isNone = e.value.isSome := by
  simp only [entries, List.forall_mem_cons, entry_error_isNone, List.not_mem_nil, false_implies, implies_true, and_self]

end TieredOptions.GrammarOutput

namespace TieredOptions

theorem Report.failures_eq_nil {r : Report} : r.failures = [] ↔ r.isComplete = true := by
  simp [failures, isComplete, List.filter_eq_nil_iff]

namespace CommandLine

open GrammarOutput (configured entries)

/-! ## Commands -/

/-- the report of the program is the report of the reference -/
theorem reportOn_eq (l : Config.Layered) (now : Instant) :
    reportOn l now = .ok ((configured l).referReport (some l) now) := by
  have hmemoryless := GrammarOutput.configured_memoryless l
  obtain ⟨hreport, -⟩ := Instance.report_yields hmemoryless 0 (some l) now _
    (Instance.memoryAfter_settled hmemoryless [])
  have hreport : ((configured l).report 0 (some l) now (.fresh (configured l).size [])).1 =
      .ok ((configured l).referReport (some l) now) := hreport
  simp only [reportOn, GrammarOutput.build_configured, hreport]

theorem load_eq (s : Settings) (read : String → Except IoFault (List UInt8)) :
    s.load read = (Config.Layered.load read s.files s.assignments).map (·.within s.sect) := by
  unfold Settings.load
  cases Config.Layered.load read s.files s.assignments with
  | error e => rfl
  | ok l => cases s.sect <;> rfl

/-- files that load have names -/
theorem files_ne_empty {d : Disk} {files texts : List String} {l : Config.Layered}
    (hl : Config.Layered.load d.read files texts = .ok l) : ∀ path ∈ files, path ≠ "" := by
  obtain ⟨fromFiles, as, hfiles, -, -⟩ := Config.Layered.load_eq_ok.1 hl
  rintro path hpath rfl
  obtain ⟨layer, bytes, -, -, hread, -⟩ := exists_forall₂_iff.1 ⟨fromFiles, hfiles⟩ "" hpath
  have hfault : d.read "" = .error .notFound := rfl
  cases hfault.symm.trans hread

/-- how a command ends that has its report and writes no file -/
def Verb.shows (verb : Verb) (json : Bool) (r : Report) : Outcome :=
  match verb with
  | .explain => explained json r
  | .verify => verified r

theorem shows_status (verb : Verb) (json : Bool) (r : Report) : (verb.shows json r).status = status r := by
  cases verb with
  | explain => rfl
  | verify =>
    unfold Verb.shows verified status
    by_cases h : r.isComplete = true
    · rw [if_pos h, if_pos (Report.failures_eq_nil.2 h)]
    · rw [if_neg h, if_neg (mt Report.failures_eq_nil.1 h)]

/-- a run of a command that writes no file -/
theorem run_eq {d : Disk} {now : Instant} {args : List String} {verb : Verb} {s : Settings} {r : Report}
    (hargs : Invocation.ofArguments args = .run verb s) (hr : s.report d.read now = .ok r)
    (hfile : verb = .verify ∨ s.output = none) : run d now args = (verb.shows s.json r, d) := by
  unfold run
  rw [hargs]
  cases verb with
  | verify =>
    simp only [Invocation.effect, command, hr, Effect.ofOutcome]
    rfl
  | explain =>
    have hnone : s.output = none := hfile.resolve_left (by decide)
    simp only [Invocation.effect, command, hr, hnone, Option.map_none]
    rfl

/-- **The program computes the closed form.** Whenever files and assignments load,
- there is a report, and its options are what the closed form says of the configuration within the section;
- a command that writes no file shows this report. Its status is 0 if all options have a value, and 1 if one has none;
- both commands can be asked for with these files and assignments and this section. -/
theorem report_closed_form (d : Disk) (now : Instant) (s : Settings) {l : Config.Layered}
    (hl : Config.Layered.load d.read s.files s.assignments = .ok l) :
    ∃ r, s.report d.read now = .ok r ∧ r.options = entries (l.within s.sect) ∧
      (∀ args verb, Invocation.ofArguments args = .run verb s → verb = .verify ∨ s.output = none →
        run d now args = (verb.shows s.json r, d) ∧
        ((run d now args).1.status = 0 ↔ ∀ e ∈ r.options, e.value.isSome = true) ∧
        ((run d now args).1.status = 1 ↔ ∃ e ∈ r.options, e.value = none)) ∧
      ∀ verb, s.TakenBy verb → Invocation.ofArguments (s.arguments verb) = .run verb s := by
  have hreport : s.report d.read now =
      .ok ((configured (l.within s.sect)).referReport (some (l.within s.sect)) now) := by
    unfold Settings.report
    rw [load_eq, hl]
    exact reportOn_eq (l.within s.sect) now
  have hoptions := GrammarOutput.referReport_options (l.within s.sect) now
  refine ⟨_, hreport, hoptions, fun args verb hargs hfile => ?_, fun verb => ofArguments_arguments (files_ne_empty hl)⟩
  have hrun := run_eq hargs hreport hfile
  generalize (configured (l.within s.sect)).referReport (some (l.within s.sect)) now = r at hoptions hrun
  have hcomplete : r.isComplete = true ↔ ∀ e ∈ r.options, e.value.isSome = true := by
    rw [Report.isComplete, List.all_eq_true, hoptions]
    exact forall₂_congr fun e he => by rw [GrammarOutput.entries_complete _ e he]
  have hlacks : (¬ ∀ e ∈ r.options, e.value.isSome = true) ↔ ∃ e ∈ r.options, e.value = none := by simp
  rw [hrun, shows_status, ← hlacks, ← hcomplete]
  unfold status
  refine ⟨rfl, ?_, ?_⟩ <;> split <;> simp [*]

/-- A file with a table for output, and one assignment to the table. -/
def cypherDisk : Disk := Disk.empty.makeFile "grammar.toml"
  (Text.Utf8.encode "[output]\ngrammar_name = \"Cypher\"\nline_width = 0\n")

def cypherSettings (sect : String) : Settings := ⟨["grammar.toml"], ["output.indent_width=2"], some sect, false, none⟩

def cypher : Config.Layered := .ofLayers
  [.object [("output", .object [("grammar_name", .string "Cypher"), ("line_width", .number (.int 0))])],
    .object [("output", .object [("indent_width", .number (.int 2))])]]
  [⟨.file, some "grammar.toml", some (Digest.Sha256.digest
    (Text.Utf8.encode "[output]\ngrammar_name = \"Cypher\"\nline_width = 0\n"))⟩, ⟨.cli, none, none⟩]

/-- In the table for output the name is all that is needed. There is no table for drafts, and so no name. -/
theorem cypher_verified :
    Config.Layered.load cypherDisk.read ["grammar.toml"] ["output.indent_width=2"] = .ok cypher ∧
    (run cypherDisk ⟨0, 0⟩
      ["verify", "--config=grammar.toml", "--set=output.indent_width=2", "--section=output"]).1.status = 0 ∧
    (run cypherDisk ⟨0, 0⟩
      ["explain", "-c", "grammar.toml", "--set", "output.indent_width=2", "--section", "draft"]).1.status = 1 := by
  have hload : Config.Layered.load cypherDisk.read ["grammar.toml"] ["output.indent_width=2"] = .ok cypher :=
    ok_of_toOption (by decide +kernel)
  have hvalues : ∀ e ∈ entries (cypher.within (some "output")), e.value.isSome = true := by decide +kernel
  have hlacks : ∃ e ∈ entries (cypher.within (some "draft")), e.value = none := by decide +kernel
  have hverify : (cypherSettings "output").arguments .verify =
      ["verify", "--config=grammar.toml", "--set=output.indent_width=2", "--section=output"] := by decide +kernel
  have hexplain : Invocation.ofArguments
      ["explain", "-c", "grammar.toml", "--set", "output.indent_width=2", "--section", "draft"] =
        .run .explain (cypherSettings "draft") := by decide +kernel
  obtain ⟨r, -, hoptions, hstatus, harguments⟩ := report_closed_form cypherDisk ⟨0, 0⟩ (cypherSettings "output") hload
  obtain ⟨r', -, hoptions', hstatus', -⟩ := report_closed_form cypherDisk ⟨0, 0⟩ (cypherSettings "draft") hload
  have hparsed := harguments .verify ⟨rfl, rfl⟩
  rw [hverify] at hparsed
  obtain ⟨-, hzero, -⟩ := hstatus _ .verify hparsed (.inl rfl)
  obtain ⟨-, -, hone⟩ := hstatus' _ .explain hexplain (.inr rfl)
  rw [hoptions] at hzero
  rw [hoptions'] at hone
  exact ⟨hload, hzero.2 hvalues, hone.2 hlacks⟩

end CommandLine

end TieredOptions
