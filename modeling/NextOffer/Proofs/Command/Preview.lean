import Mathlib.Data.List.TakeWhile
import NextOffer.Command.Run
import NextOffer.Proofs.Command.Inputs
import NextOffer.Proofs.Lines
import NextOffer.Proofs.LoadedNumbers
import NextOffer.Proofs.Stability

/-! # What previews print

A preview prints a block for each rule, in the order in which an evaluation takes the rules: a
heading with status, priority and name, and the preview of the rule below. Choosing a status
leaves blocks out and changes nothing else, since a stable sort of what is left is what is left
of the stable sort. A block has two lines unless a text of its rule has line breaks.
-/

namespace NextOffer

namespace Text

theorem lineFeed_notMem_control (cs : List Char) : '\n' ∉ cs.take (controlLength cs) := by
  unfold controlLength
  split
  case h_2 => simp
  case h_1 escape bracket rest =>
      split
      case isFalse => simp
      case isTrue begins =>
          dsimp only
          split
          case h_2 => simp
          case h_1 last tail behind =>
              split
              case isFalse => simp
              case isTrue letter =>
                  have shape : rest.takeWhile isParameter ++ last :: tail = rest := by
                    rw [← behind, ← List.prefix_iff_eq_append]
                    exact List.takeWhile_prefix _
                  have parameters : '\n' ∉ rest.takeWhile isParameter := fun member =>
                    absurd (List.mem_takeWhile_imp member) (by decide)
                  have final : last ≠ '\n' := by
                    rintro rfl
                    exact absurd letter (by decide)
                  obtain ⟨rfl, rfl⟩ := begins
                  generalize rest.takeWhile isParameter = inner at *
                  subst shape
                  have short : inner.take (inner.length + 1) = inner :=
                    List.take_of_length_le (Nat.le_succ _)
                  simp [List.take_append, short, parameters, final.symm]

theorem count_withoutControlsFrom (covered : Nat) (cs : List Char) :
    (withoutControlsFrom covered cs).count '\n' = (cs.drop covered).count '\n' := by
  induction cs generalizing covered with
  | nil => simp [withoutControlsFrom]
  | cons c rest ih =>
      cases covered with
      | succ covered => exact ih covered
      | zero =>
          have apart := List.count_eq_zero.mpr (lineFeed_notMem_control (c :: rest))
          rw [withoutControlsFrom]
          split
          case h_1 => simp [ih, List.count_cons]
          case h_2 left length =>
              have whole := congrArg (List.count '\n')
                (List.take_append_drop (left + 1) (c :: rest))
              rw [length] at apart
              rw [ih, List.drop_zero, ← whole, List.count_append, apart, Nat.zero_add]
              rfl

end Text

namespace Command

variable {around : Surroundings} {console : Console}

/-! ## Blocks -/

/-- The line that stands over the preview of a rule: its status, its priority and its name. -/
def heading (rule : Rule) : String :=
  "[" ++ Text.flushLeft 8 rule.status.word ++ "] " ++ Text.flushRight 3 (toString rule.priority) ++
    "  " ++ rule.name

/-- What is printed for a rule: its heading, and its preview on the next line. -/
def Block (rule : Rule) (text : String) : Prop :=
  ∃ preview, rule.preview = .ok preview ∧
    text = Text.withoutControls (heading rule) ++ "\n" ++
      Text.withoutControls ("    " ++ preview) ++ "\n"

/-- What is printed for all rules together. -/
def listing (blocks : List (Rule × String)) : String :=
  if blocks = [] then "(no rules to preview)\n" else String.join (blocks.map Prod.snd)

theorem plainText_int (n : Int) : (Number.int n).plainText = toString n := by
  cases n with
  | ofNat n => rfl
  | negSucc n =>
      have digits : toString (Int.negSucc n) = "-" ++ Nat.repr (n + 1) := rfl
      simp [digits, Number.plainText, Number.plainChars, signedDigits, Nat.repr]

theorem run_previewRule {rule : Rule} {text : String}
    (priority : (Number.int rule.priority).isWritable = true) (block : Block rule text) :
    console.run around (previewRule rule) =
      (.ok (), { console with output := console.output ++ text }) := by
  obtain ⟨preview, previewed, rfl⟩ := block
  have headed {priority : String} (same : priority = toString rule.priority) :
      s!"[{Text.left 8 rule.status.word}] {Text.right 3 priority}  {rule.name}" = heading rule := by
    rw [same, Text.left_eq_flushLeft, Text.right_eq_flushRight]
    simp only [heading, toString, String.append_assoc]
  rw [previewRule, Number.plain_of_isWritable priority, previewed]
  change (console.run around (Job.say _ >>= fun _ => Job.say _)) = _
  rw [Console.run_bind_of_ok (Console.run_say _), Console.run_say,
    headed (plainText_int _)]
  simp [String.append_assoc, toString]

theorem exists_blocks {rules : List Rule} (writable : ∀ rule ∈ rules, rule.IsWritable) :
    ∃ blocks : List (Rule × String), blocks.map Prod.fst = rules ∧
      ∀ block ∈ blocks, Block block.1 block.2 := by
  induction rules with
  | nil => exact ⟨[], rfl, by simp⟩
  | cons rule rest ih =>
      obtain ⟨first, later⟩ := List.forall_mem_cons.mp writable
      obtain ⟨preview, told⟩ := first.preview_returns
      obtain ⟨text, block⟩ : ∃ text, Block rule text := ⟨_, preview, told, rfl⟩
      obtain ⟨blocks, rfl, others⟩ := ih later
      exact ⟨(rule, text) :: blocks, rfl, List.forall_mem_cons.mpr ⟨block, others⟩⟩

theorem run_previewRules {blocks : List (Rule × String)}
    (writable : ∀ block ∈ blocks, block.1.IsWritable)
    (told : ∀ block ∈ blocks, Block block.1 block.2) :
    console.run around ((blocks.map Prod.fst).forM previewRule) =
      (.ok (), { console with
        output := console.output ++ String.join (blocks.map Prod.snd) }) := by
  induction blocks generalizing console with
  | nil => simp [Console.run_pure]
  | cons block rest ih =>
      obtain ⟨fine, others⟩ := List.forall_mem_cons.mp writable
      obtain ⟨first, later⟩ := List.forall_mem_cons.mp told
      change console.run around
        (previewRule block.1 >>= fun _ => (rest.map Prod.fst).forM previewRule) = _
      rw [Console.run_bind_of_ok (run_previewRule fine.priority first), ih others later]
      simp [String.append_assoc]

/-- A selection of rules is printed as a listing of their blocks. -/
theorem run_listing {blocks : List (Rule × String)}
    (writable : ∀ block ∈ blocks, block.1.IsWritable)
    (told : ∀ block ∈ blocks, Block block.1 block.2) :
    console.run around
        (match blocks.map Prod.fst with
          | [] => Job.say "(no rules to preview)"
          | selected => selected.forM previewRule) =
      (.ok (), { console with output := console.output ++ listing blocks }) := by
  cases blocks with
  | nil =>
      have plain : Text.withoutControls "(no rules to preview)" = "(no rules to preview)" := by
        decide
      rw [List.map_nil, Console.run_say, plain]
      rfl
  | cons block rest => exact run_previewRules writable told

theorem isLine_heading_iff {rule : Rule} : Text.IsLine (heading rule) ↔ Text.IsLine rule.name := by
  have status : Text.IsLine (Text.flushLeft 8 rule.status.word) := by
    cases rule.status <;> decide
  have priority : Text.IsLine (Text.flushRight 3 (toString rule.priority)) := by
    rw [← Text.right_eq_flushRight, Text.isLine_right, ← plainText_int, Text.IsLine,
      Number.plainText, String.toList_ofList]
    intro member
    rcases mem_signedDigits member with sign | digit
    · exact absurd sign (by decide)
    · exact absurd digit (by decide)
  have marks : Text.IsLine "[" ∧ Text.IsLine "] " ∧ Text.IsLine "  " := by decide
  simp only [heading, Text.isLine_append, status, priority, marks, true_and, and_true]

/-- A block has two lines unless the name or the preview has line breaks. -/
theorem Block.two_lines_iff {rule : Rule} {text preview : String} (block : Block rule text)
    (previewed : rule.preview = .ok preview) :
    text.toList.count '\n' = 2 ↔ Text.IsLine rule.name ∧ Text.IsLine preview := by
  obtain ⟨preview', told, rfl⟩ := block
  cases previewed.symm.trans told
  have breaks (line : String) :
      (Text.withoutControls line).toList.count '\n' = line.toList.count '\n' := by
    simpa [Text.withoutControls] using Text.count_withoutControlsFrom 0 line.toList
  have none (line : String) : line.toList.count '\n' = 0 ↔ Text.IsLine line :=
    List.count_eq_zero
  have indent : ("    " ++ preview).toList.count '\n' = preview.toList.count '\n' := by
    simp
  rw [← isLine_heading_iff, ← none, ← none]
  simp only [String.toList_append, List.count_append, breaks]
  simp
  omega

/-! ## Order -/

theorem previewed_perm (rules : List Rule) : (previewed none rules).Perm rules := by
  simpa [previewed] using List.mergeSort_perm rules _

section

variable (rules : List Rule)

theorem trans_falling (a b c : Int) : decide (b ≤ a) → decide (c ≤ b) → decide (c ≤ a) := by
  simp only [decide_eq_true_eq]
  omega

theorem total_falling (a b : Int) : decide (b ≤ a) || decide (a ≤ b) := by
  simp only [Bool.or_eq_true, decide_eq_true_eq]
  omega

theorem previewed_none :
    previewed none rules = rules.mergeSort fun a b => decide (b.priority ≤ a.priority) := by
  simp [previewed]

theorem falling_previewed :
    (previewed none rules).Pairwise fun a b => b.priority ≤ a.priority := by
  rw [previewed_none]
  refine (List.pairwise_mergeSort (fun a b c => ?_) (fun a b => ?_) rules).imp
    fun fall => of_decide_eq_true fall
  · exact trans_falling a.priority b.priority c.priority
  · exact total_falling a.priority b.priority

theorem stable_previewed (priority : Int) :
    (previewed none rules).filter (·.priority = priority) =
      rules.filter (·.priority = priority) := by
  rw [previewed_none]
  refine Stability.filter_mergeSort (fun a b c => ?_) (fun a b => ?_) _ (fun a b here here' => ?_)
    rules
  · exact trans_falling a.priority b.priority c.priority
  · exact total_falling a.priority b.priority
  · simp only [decide_eq_true_eq] at here here' ⊢
    omega

theorem previewed_some (status : Status) :
    previewed (some status) rules =
      (previewed none rules).filter fun rule => rule.status = status := by
  have antisymm {a b : Int} : decide (b ≤ a) → decide (a ≤ b) → a = b := by
    simp only [decide_eq_true_eq]
    omega
  simpa [previewed] using Stability.mergeSort_filter Rule.priority trans_falling total_falling
    antisymm (fun rule => decide (rule.status = status)) rules

end

theorem previewed_active (rules : List Rule) :
    previewed (some .active) rules = Rule.sortActive rules := by
  have same : (fun rule : Rule => (some Status.active).all (rule.status = ·)) = Rule.isActive := by
    funext rule
    simp [Rule.isActive, beq_eq_decide]
  rw [previewed, same, Rule.sortActive]

/-- The word of a status on the command line, in capital or small letters. -/
def Spells (word : String) (status : Status) : Prop := Text.latinCapitals word = status.word

/-- The options ask for the rules of a status, or for all rules. -/
def Asks (options : PreviewOptions) : Option Status → Prop
  | none => options.status = none
  | some status => ∃ word, options.status = some word ∧ Spells word status

theorem run_statusOf {options : PreviewOptions} {status : Option Status}
    (asks : Asks options status) :
    console.run around (statusOf options) = (.ok status, console) := by
  cases status with
  | none =>
      rw [statusOf, asks]
      rfl
  | some status =>
      obtain ⟨word, asked, spelled⟩ := asks
      have found : Status.ofWord? status.word = some status := by cases status <;> decide
      rw [statusOf, asked]
      dsimp only
      rw [spelled, found]
      rfl

/-! ## Previews -/

/-- The preview with these options succeeds and prints the text, nothing else. -/
def Prints (console : Console) (around : Surroundings)
    (options : PreviewOptions) (text : String) : Prop :=
  ∃ final, console.run around (Command.run (.previewRules options)) = (.ok (), final) ∧
    final.output = console.output ++ text

/-- The blocks that previews of the rules select from. -/
structure Lists (rules : List Rule) (blocks : List (Rule × String)) : Prop where
  /-- Each rule has one block. -/
  complete : (blocks.map Prod.fst).Perm rules
  /-- Priorities fall, -/
  falling : (blocks.map Prod.fst).Pairwise fun a b => b.priority ≤ a.priority
  /-- and rules of one priority stay in the order of the file. -/
  stable : ∀ priority : Int, (blocks.map Prod.fst).filter (·.priority = priority) =
    rules.filter (·.priority = priority)
  /-- The active ones are in the order of an evaluation. -/
  active : (blocks.filter fun block => block.1.status = .active).map Prod.fst =
    Rule.sortActive rules
  spelled : ∀ block ∈ blocks, Block block.1 block.2
  /-- A block has two lines unless the name or the preview of its rule has line breaks. -/
  twoLines : ∀ block ∈ blocks, ∀ preview, block.1.preview = .ok preview →
    (block.2.toList.count '\n' = 2 ↔ Text.IsLine block.1.name ∧ Text.IsLine preview)

section

variable {options : PreviewOptions} {settings : Settings} {prepared : Console} {text : String}
  {rules : List Rule}

/-- When the settings can be had and the file is accepted, its rules are previewed. -/
theorem prints_of_asks {status : Option Status} {blocks : List (Rule × String)}
    (ready : console.run around (Settings.loadAndPrepare options.config) =
      (.ok settings, prepared))
    (held : console.disk.Holds (Loading.pick options.rules settings (·.rulesFile)) text)
    (accepted : Loading.rules (Loading.pick options.rules settings (·.rulesFile)) (some text) =
      .ok rules)
    (asks : Asks options status) (selected : blocks.map Prod.fst = previewed status rules)
    (told : ∀ block ∈ blocks, Block block.1 block.2) :
    Prints console around options (listing blocks) := by
  have stays := (Console.steady_holds _ text).loadAndPrepare options.config around
    console held
  have silent := (Console.steady_output console.output).loadAndPrepare options.config around
    console rfl
  rw [ready] at stays silent
  obtain ⟨reached, loaded, printed⟩ :=
    Loading.run_orRefuse stays accepted (Settings.atHand_of_loadAndPrepare ready)
  have writable : ∀ block ∈ blocks, block.1.IsWritable := by
    intro block member
    have among : block.1 ∈ previewed status rules := selected ▸ List.mem_map_of_mem member
    rw [previewed, List.mem_mergeSort] at among
    exact Loading.isWritable_rules accepted _ (List.mem_of_mem_filter among)
  refine ⟨{ reached with output := reached.output ++ listing blocks }, ?_, ?_⟩
  · rw [Command.run, runPreviewRules, Console.run_bind_of_ok ready,
      Console.run_bind_of_ok (run_statusOf asks)]
    refine (Console.run_bind_of_ok loaded _).trans ?_
    rw [← selected]
    exact run_listing writable told
  · rw [printed, silent]

/-- A preview of all rules prints a block for each, and the preview of a status those of these
    blocks whose rule has the status. The active rules are listed as an evaluation takes them. -/
theorem preview_lists {given config : Option String}
    (ready : console.run around (Settings.loadAndPrepare config) =
      (.ok settings, prepared))
    (held : console.disk.Holds (Loading.pick given settings (·.rulesFile)) text)
    (accepted : Loading.rules (Loading.pick given settings (·.rulesFile)) (some text) =
      .ok rules) :
    ∃ blocks : List (Rule × String), Lists rules blocks ∧
      Prints console around ⟨given, config, none⟩ (listing blocks) ∧
      ∀ status word, Spells word status →
        Prints console around ⟨given, config, some word⟩
          (listing (blocks.filter fun block => block.1.status = status)) := by
  have writable : ∀ rule ∈ previewed none rules, rule.IsWritable := fun rule member =>
    Loading.isWritable_rules accepted rule ((previewed_perm rules).mem_iff.mp member)
  obtain ⟨blocks, whole, told⟩ := exists_blocks writable
  have kept (status : Status) :
      (blocks.filter fun block => block.1.status = status).map Prod.fst =
        previewed (some status) rules := by
    rw [previewed_some, ← whole, List.filter_map]
    rfl
  refine ⟨blocks, ?lists, ?all, ?each⟩
  case lists =>
      exact {
        complete := whole ▸ previewed_perm rules
        falling := whole ▸ falling_previewed rules
        stable := whole ▸ stable_previewed rules
        active := (kept .active).trans (previewed_active rules)
        spelled := told
        twoLines := fun block member preview => (told block member).two_lines_iff }
  case all =>
      have asks : Asks ⟨given, config, none⟩ none := rfl
      exact prints_of_asks ready held accepted asks whole told
  case each =>
      intro status word spelled
      have asks : Asks ⟨given, config, some word⟩ (some status) := ⟨word, rfl, spelled⟩
      exact prints_of_asks ready held accepted asks (kept status) fun block member =>
        told block (List.mem_of_mem_filter member)

end

theorem latinCapital_of_latin {c : Char} (latin : c.toUpper.toNat < 0x80) :
    Text.latinCapital c = [c.toUpper] := by
  unfold Text.latinCapital
  split
  all_goals first | rfl | exact absurd latin (by decide)

theorem spells_of_toUpper {word : String} {status : Status}
    (same : word.toList.map Char.toUpper = status.word.toList) : Spells word status := by
  have latin : ∀ c ∈ word.toList, c.toUpper.toNat < 0x80 := by
    intro c inside
    have member : c.toUpper ∈ status.word.toList := same ▸ List.mem_map_of_mem inside
    have words : status.word.toList.all (·.toNat < 0x80) := by cases status <;> rfl
    exact of_decide_eq_true (List.all_eq_true.mp words _ member)
  have capitals : word.toList.flatMap Text.latinCapital = word.toList.map Char.toUpper := by
    rw [List.map_eq_flatMap]
    exact List.flatMap_congr fun c inside => latinCapital_of_latin (latin c inside)
  rw [Spells, Text.latinCapitals, capitals, same, String.ofList_toList]

/-! ## A desk -/

/-- Documentation and three rules, of which two are active. -/
def deskItems : List Json.Value := [
  .object [("_comment", .string "Rules of the front desk")],
  .object [("id", .string "low"), ("name", .string "Low"), ("event", .string "LOGIN"),
    ("status", .string "ACTIVE"), ("priority", .int (-3))],
  .object [("id", .string "draft"), ("name", .string "Draft"), ("event", .string "LOGIN"),
    ("status", .string "DRAFT"), ("priority", .int 7)],
  .object [("id", .string "high"), ("name", .string "High"), ("event", .string "LOGIN"),
    ("status", .string "ACTIVE"), ("priority", .int 7),
    ("conditions", .array [.object [("source", .string "event.amount"), ("op", .string ">"),
      ("value", .int 5)]]),
    ("effects", .array [.object [("type", .string "addTag"), ("tag", .string "guest")]])]]

def low : Rule := { id := "low", name := "Low", status := .active, priority := -3, event := .login }

def high : Rule where
  id := "high"
  name := "High"
  status := .active
  priority := 7
  event := .login
  conditions := [⟨"event.amount", ">", some (.scalar (.number 5))⟩]
  effects := [.addTag (some "guest")]

def deskRules : List Rule :=
  [low, { id := "draft", name := "Draft", priority := 7, event := .login }, high]

theorem isDate_opening : Calendar.IsDate 2026 2 5 := by decide

def opening : Timestamp := .midnight ⟨2026, 2, 5, isDate_opening⟩ none

/-- A console with a file of rules. -/
def ofRules (text : String) : Console := .project [("rules.json", .file text)]

theorem ready_ofRules (text : String) :
    (ofRules text).run (.bare opening) (Settings.loadAndPrepare none) = (.ok {}, ofRules text) :=
  rfl

theorem holds_ofRules (text : String) :
    (ofRules text).disk.Holds (Loading.pick (some "rules.json") {} (·.rulesFile)) text :=
  rfl

theorem rules_text {items : List Json.Value} {path : FilePath} {rules : List Rule}
    (legible : (Json.Value.array items).Everywhere Json.Value.IsLegible)
    (low : (Json.Value.array items).height ≤ Loading.levels)
    (validated : (do
      let rules ← Loading.validate "Rule" Rule.reader path
        (items.filter (!Loading.isComment ·))
      Loading.requireDistinct "rule" path (rules.map (·.id))
      return rules : Except LoadFault (List Rule)) = .ok rules) :
    Loading.rules path (some (Json.Form.indented.text (.array items))) = .ok rules := by
  have read := Loading.readValue_text path Json.Form.regular_indented legible low
  rw [Loading.rules, Loading.readArray, read]
  exact validated

def deskText : String := Json.Form.indented.text (.array deskItems)

theorem rules_desk :
    Loading.rules (FilePath.ofText "rules.json") (some deskText) = .ok deskRules := by
  refine rules_text ?_ (by decide) (by rfl)
  simp [deskItems, Json.Value.int, Json.Value.IsLegible, Json.Value.HasDistinctNames,
    Json.Value.HasShortInteger, Fields.names, Number.digit_lt_limit, -Nat.pow_eq]

def highText : String :=
  "[ACTIVE  ]   7  High\n    When **login** and amount > 5 → add tag \"guest\"\n"

def lowText : String :=
  "[ACTIVE  ]  -3  Low\n    Complete the rule configuration to see preview...\n"

/-- The two active rules of the desk are printed, the later and higher one first, whatever the
    case of the letters that ask for them. -/
theorem preview_lists_desk :
    ofArguments? ["preview-rules", "--rules", "rules.json", "--status", "aCtIvE"] =
      some (.previewRules ⟨some "rules.json", none, some "aCtIvE"⟩) ∧
    (ofRules deskText).run (.bare opening) (Settings.loadAndPrepare none) =
      (.ok {}, ofRules deskText) ∧
    (ofRules deskText).disk.Holds (Loading.pick (some "rules.json") {} (·.rulesFile)) deskText ∧
    Loading.rules (FilePath.ofText "rules.json") (some deskText) = .ok deskRules ∧
    Prints (ofRules deskText) (.bare opening) ⟨some "rules.json", none, some "aCtIvE"⟩
      (highText ++ lowText) := by
  have ready := ready_ofRules deskText
  have held := holds_ofRules deskText
  obtain ⟨blocks, lists, -, each⟩ := preview_lists ready held rules_desk
  have printed := each .active "aCtIvE" (spells_of_toUpper (by decide))
  have active : (blocks.filter fun block => block.1.status = .active).map Prod.fst =
      [high, low] :=
    lists.active.trans (by simp [Rule.sortActive, deskRules, Rule.isActive, List.mergeSort,
      high, low])
  have spelled : ∀ block ∈ blocks.filter fun block => block.1.status = .active,
      Block block.1 block.2 := fun block member =>
    lists.spelled block (List.mem_of_mem_filter member)
  generalize blocks.filter (fun block => block.1.status = .active) = shown at *
  obtain ⟨⟨_, first⟩, rest, rfl, rfl, others⟩ := List.map_eq_cons_iff.mp active
  obtain ⟨⟨_, second⟩, last, rfl, rfl, none⟩ := List.map_eq_cons_iff.mp others
  obtain rfl := List.map_eq_nil_iff.mp none
  have block : Block high first := spelled _ List.mem_cons_self
  have block' : Block low second := spelled _ (List.mem_cons_of_mem _ List.mem_cons_self)
  have texts : first = highText ∧ second = lowText := by
    obtain ⟨_, told, rfl⟩ := block
    obtain ⟨_, told', rfl⟩ := block'
    have preview : high.preview = .ok "When **login** and amount > 5 → add tag \"guest\"" := by
      decide +kernel
    cases preview.symm.trans told
    cases (Except.ok.inj told' : Rule.incompletePreview = _)
    decide +kernel
  obtain ⟨rfl, rfl⟩ := texts
  exact ⟨rfl, ready, held, rules_desk, printed⟩

/-- A rule with a line break in its name. -/
def broken : Rule := { id := "broken", name := "Front\ndesk", status := .active, event := .login }

def brokenItems : List Json.Value := [
  .object [("id", .string "broken"), ("name", .string "Front\ndesk"), ("event", .string "LOGIN"),
    ("status", .string "ACTIVE")]]

def brokenText : String := Json.Form.indented.text (.array brokenItems)

def brokenBlock : String :=
  "[ACTIVE  ]  50  Front\ndesk\n    Complete the rule configuration to see preview...\n"

/-- The preview of one active rule is three lines. -/
theorem preview_breaks_lines :
    Loading.rules (FilePath.ofText "rules.json") (some brokenText) = .ok [broken] ∧
    Rule.sortActive [broken] = [broken] ∧
    Prints (ofRules brokenText) (.bare opening) ⟨some "rules.json", none, some "ACTIVE"⟩
      brokenBlock ∧
    brokenBlock.toList.count '\n' = 3 := by
  have accepted : Loading.rules (FilePath.ofText "rules.json") (some brokenText) =
      .ok [broken] := by
    refine rules_text ?_ (by decide) (by rfl)
    simp [brokenItems, Json.Value.IsLegible, Json.Value.HasDistinctNames,
      Json.Value.HasShortInteger, Fields.names]
  have sorted : Rule.sortActive [broken] = [broken] := by
    simp [Rule.sortActive, Rule.isActive, broken]
  have asks : Asks ⟨some "rules.json", none, some "ACTIVE"⟩ (some .active) :=
    ⟨_, rfl, spells_of_toUpper (by decide)⟩
  have block : Block broken brokenBlock := ⟨_, rfl, by decide +kernel⟩
  have blocks : ∀ block ∈ [(broken, brokenBlock)], Block block.1 block.2 :=
    List.forall_mem_singleton.mpr block
  have ready := ready_ofRules brokenText
  have held := holds_ofRules brokenText
  have selected : [broken] = previewed (some .active) [broken] :=
    sorted.symm.trans (previewed_active _).symm
  have printed : Prints (ofRules brokenText) (.bare opening)
      ⟨some "rules.json", none, some "ACTIVE"⟩ (listing [(broken, brokenBlock)]) :=
    prints_of_asks ready held accepted asks selected blocks
  have whole : listing [(broken, brokenBlock)] = brokenBlock := by simp [listing]
  rw [whole] at printed
  exact ⟨accepted, sorted, printed, by decide⟩

end Command

end NextOffer
