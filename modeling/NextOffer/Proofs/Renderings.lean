import NextOffer.Proofs.Csv
import NextOffer.Proofs.Evaluation.Change
import NextOffer.Proofs.Lines
import NextOffer.Proofs.Ranking.Arrangement

/-! # The renderings of a simulation

A simulation is told in a narrative, in tables, as comma separated values, and as a report in
JSON. All of them list what the ranking and the trace hold, in order. The narrative tells shown
products from hidden ones; since no shown product is ranked behind a hidden one, its two lists
are the front and the back of the ranking.
-/

namespace NextOffer

open Text

/-! ## Fronts and backs -/

theorem filter_eq_take_drop {α : Type u} {keep : α → Bool} {items : List α}
    (first : items.Pairwise fun a b => keep b = true → keep a = true) :
    items.filter keep = items.take (items.countP keep) ∧
      items.filter (fun item => !keep item) = items.drop (items.countP keep) := by
  induction items with
  | nil => exact ⟨rfl, rfl⟩
  | cons a rest ih =>
      obtain ⟨before, later⟩ := List.pairwise_cons.mp first
      obtain ⟨front, back⟩ := ih later
      cases kept : keep a with
      | true => simp [kept, front, back]
      | false =>
          have none : ∀ b ∈ rest, keep b = false := by
            intro b member
            by_contra shown
            rw [before b member (by simpa using shown)] at kept
            cases kept
          have count : rest.countP keep = 0 := by
            rw [List.countP_eq_zero]
            exact fun b member => by simp [none b member]
          have all : rest.filter (fun item => !keep item) = rest :=
            List.filter_eq_self.mpr fun b member => by simp [none b member]
          have nothing : rest.filter keep = [] :=
            List.filter_eq_nil_iff.mpr fun b member => by simp [none b member]
          simp [kept, count, all, nothing]

namespace Ranking

theorem map_rank_placeFrom (rank : Nat) (items : List ScoredProduct) :
    (placeFrom rank items).map Recommendation.rank = List.range' rank items.length := by
  rw [placeFrom_eq_mapIdx]
  exact List.ext_getElem (by simp) (by simp [place])

variable {products : List Product} {profile : Profile} {precision : Int}
  {entries : List Recommendation}

theorem ranks_shown_first (done : recommend products profile precision = .ok entries) :
    entries.map Recommendation.rank = List.range' 1 entries.length ∧
      entries.Pairwise fun a b => b.isShown = true → a.isShown = true := by
  obtain ⟨_, ordered, -, -, -, rfl, arranged, -⟩ := exists_sources done
  refine ⟨?_, List.pairwise_map.mpr (arranged.shownFirst.imp ?_)⟩
  · rw [Source.map_entry_seats, map_rank_placeFrom, placeFrom_eq_mapIdx, List.length_mapIdx]
  · intro a b first shown
    simp only [Recommendation.isShown, beq_iff_eq] at shown ⊢
    exact first shown

end Ranking

/-! ## The narrative -/

namespace Narrative

/-- The first line, with the number of rules that fired. -/
def headline (fired : Nat) : String :=
  if fired = 0 then "No rules were triggered by the provided events."
  else
    let plural := if fired > 1 then "s" else ""
    s!"{fired} rule{plural} matched:"

def bullet (entry : TraceEntry) : String := s!"• \"{entry.ruleName}\": {entry.effectDescription}"

theorem traceLines_eq (trace : List TraceEntry) :
    traceLines trace = headline trace.length :: trace.map bullet := by
  cases trace <;> rfl

theorem isLine_headline (fired : Nat) : IsLine (headline fired) := by
  unfold headline
  split
  case isTrue => decide
  case isFalse =>
      have plural : IsLine (if fired > 1 then "s" else "") := by split <;> decide
      have matched : IsLine " rule" ∧ IsLine " matched:" := by decide
      simp only [isLine_append]
      exact ⟨⟨⟨isLine_toString fired, matched.1⟩, plural⟩, matched.2⟩

theorem isLine_bullet {entry : TraceEntry} (name : IsLine entry.ruleName)
    (description : IsLine entry.effectDescription) : IsLine (bullet entry) := by
  have marks : IsLine "• \"" ∧ IsLine "\": " := by decide
  simp only [bullet, isLine_append]
  exact ⟨⟨⟨marks.1, name⟩, marks.2⟩, description⟩

theorem isLine_of_mem_namesLine {title line : String} {names : List String} (titled : IsLine title)
    (each : ∀ name ∈ names, IsLine name) (member : line ∈ namesLine title names) :
    IsLine line := by
  unfold namesLine at member
  split at member
  case isTrue => cases member
  case isFalse =>
      obtain rfl := List.mem_singleton.mp member
      rw [isLine_append, isLine_append]
      exact ⟨⟨titled, by decide⟩, isLine_intercalate (by decide) each⟩

/-- The names of the products with a decision. -/
def named (decision : Decision) (ranked : List Recommendation) : List String :=
  (ranked.filter (·.decision = decision)).map (·.product.name)

/-- A line with a title and the names behind it, unless there are none. -/
def summaryLine (title : String) (names : List String) : List String :=
  if names = [] then [] else [title ++ ": " ++ ", ".intercalate names]

theorem lines_ofRanking {trace : List TraceEntry} {ranked : List Recommendation}
    (names : ∀ r ∈ ranked, IsLine r.product.name) (rules : ∀ entry ∈ trace, IsLine entry.ruleName)
    (descriptions : ∀ entry ∈ trace, IsLine entry.effectDescription) :
    lines (ofRanking trace ranked) =
      headline trace.length :: trace.map bullet ++ "" :: "Recommendation Summary:" ::
        (summaryLine "Showing" (named .shown ranked) ++
          summaryLine "Hidden" (named .hidden ranked)) := by
  have kept (decision : Decision) :
      ((ranked.map fun r => (r.product.name, r.decision)).filter (·.2 = decision)).map (·.1) =
        named decision ranked := by
    rw [List.filter_map, List.map_map]
    rfl
  have fromRanked (decision : Decision) : ∀ name ∈ named decision ranked, IsLine name := by
    intro name member
    obtain ⟨r, inside, rfl⟩ := List.mem_map.mp member
    exact names r (List.mem_filter.mp inside).1
  have shape : ofRanking trace ranked = unlines (headline trace.length :: (trace.map bullet ++
      "" :: "Recommendation Summary:" :: (namesLine "Showing" (named .shown ranked) ++
        namesLine "Hidden" (named .hidden ranked)))) := by
    simp only [ofRanking, text, traceLines_eq, productLines, kept]
    rfl
  rw [shape, lines_unlines (List.cons_ne_nil _ _), flatMap_lines]
  · rfl
  simp only [List.forall_mem_cons, List.forall_mem_append, isLine_headline, true_and]
  refine ⟨?_, by decide, by decide, fun line => ?_, fun line => ?_⟩
  · intro line member
    obtain ⟨entry, inside, rfl⟩ := List.mem_map.mp member
    exact isLine_bullet (rules entry inside) (descriptions entry inside)
  · exact isLine_of_mem_namesLine (by decide) (fromRanked .shown)
  · exact isLine_of_mem_namesLine (by decide) (fromRanked .hidden)

end Narrative

/-! ## Tables -/

namespace Tables

theorem traceRows_eq_mapIdx (number : Nat) (entries : List TraceEntry) :
    traceRows number entries = entries.mapIdx fun k entry => ruleRow (number + k) entry := by
  induction entries generalizing number with
  | nil => rfl
  | cons entry rest ih =>
      simp [traceRows, traceRow_eq_ruleRow, ih, Nat.add_assoc, Nat.add_comm 1]

theorem isLine_underline (header : String) : IsLine (underline header) := by
  rw [underline, isLine_append]
  exact ⟨by decide, by simp [IsLine]⟩

/-- The lines of a table with a title and a header, or with a remark when it has no rows. -/
theorem lines_table {title header remark : String} (titled : IsLine title) (headed : IsLine header)
    (remarked : IsLine remark) (rows : List String) (empty : Bool) :
    lines (unlines
        ("" :: title :: if empty then [remark] else header :: underline header :: rows)) =
      "" :: title ::
        if empty then [remark] else header :: underline header :: rows.flatMap lines := by
  have blank : IsLine "" := by decide
  cases empty with
  | true =>
      refine (lines_unlines (List.cons_ne_nil _ _)).trans (flatMap_lines ?_)
      simp [blank, titled, remarked]
  | false =>
      refine @lines_unlines_append ["", title, header, underline header]
        (List.cons_ne_nil _ _) ?_ rows
      simp [blank, titled, headed, isLine_underline]

/-- So many dashes behind two blanks. -/
def dashes (width : Nat) : String := "  " ++ String.ofList (List.replicate width '-')

theorem lines_trace (entries : List TraceEntry) :
    lines (trace entries) = "" :: "=== Rule Trace ===" ::
      if entries = [] then ["  (no rules triggered)"]
      else "    #  Rule                      Name                                  Effects" ::
        dashes 76 ::
        (entries.mapIdx fun k entry => ruleRow (k + 1) entry).flatMap lines := by
  have rows : traceRows 1 entries = entries.mapIdx fun k entry => ruleRow (k + 1) entry := by
    simp only [traceRows_eq_mapIdx, Nat.add_comm 1]
  have header : traceHeader =
      "    #  Rule                      Name                                  Effects" := by
    decide
  have below : underline traceHeader = dashes 76 := by decide
  have table : lines (trace entries) = "" :: "=== Rule Trace ===" ::
      if entries.isEmpty then ["  (no rules triggered)"]
      else traceHeader :: underline traceHeader :: (traceRows 1 entries).flatMap lines := by
    simp only [trace, ← List.isEmpty_iff]
    exact lines_table (by decide) (by decide) (by decide) _ _
  rw [table, rows, below, header]
  simp only [List.isEmpty_iff]

/-- The lines for a recommendation: its row, and its reasons if they are wanted. -/
def productLines (showWhy : Bool) (recommendation : Recommendation) : List String :=
  productRow recommendation ::
    if showWhy then recommendation.why.flatMap fun reason => lines ("          " ++ reason) else []

theorem flatMap_rankingLines {recommendations : List Recommendation}
    (names : ∀ r ∈ recommendations, IsLine r.product.name) (showWhy : Bool) :
    (recommendations.flatMap (rankingLines showWhy)).flatMap lines =
      recommendations.flatMap (productLines showWhy) := by
  rw [List.flatMap_assoc]
  refine List.flatMap_congr fun r member => ?_
  rw [rankingLines, rankingRow_eq_productRow, List.flatMap_cons,
    lines_of_isLine (isLine_productRow (names r member)), productLines]
  cases showWhy with
  | true => simp [List.flatMap_map, toString]
  | false => rfl

theorem lines_ranking {recommendations : List Recommendation}
    (names : ∀ r ∈ recommendations, IsLine r.product.name) (showWhy : Bool) :
    lines (ranking recommendations showWhy) = "" :: "=== Recommendations ===" ::
      if recommendations = [] then ["  (no active products in catalog)"]
      else "  Rank  Product                       Decision     Score" ::
        dashes 54 ::
        recommendations.flatMap (productLines showWhy) := by
  have header : rankingHeader = "  Rank  Product                       Decision     Score" := by
    decide
  have below : underline rankingHeader = dashes 54 := by decide
  have table : lines (ranking recommendations showWhy) = "" :: "=== Recommendations ===" ::
      if recommendations.isEmpty then ["  (no active products in catalog)"]
      else rankingHeader :: underline rankingHeader ::
        (recommendations.flatMap (rankingLines showWhy)).flatMap lines :=
    lines_table (by decide) (by decide) (by decide) _ _
  rw [table, flatMap_rankingLines names, below, header]
  simp only [List.isEmpty_iff]

end Tables

namespace Simulation

/-! ## The report -/

variable {simulation : Simulation}

theorem get?_report {label : String} {report : Json.Value}
    (done : simulation.report label = .ok report) :
    report.get? "recommendations" =
      some (.array (simulation.recommendations.map Recommendation.summary)) := by
  obtain ⟨updated, -, done⟩ := Outcome.bind_eq_ok_iff.mp done
  split at done
  case isTrue =>
      cases done
      rfl
  case isFalse => cases done

theorem report_returns_iff (label : String) :
    (∃ report, simulation.report label = .ok report) ↔
      simulation.fits dumpLevels = true ∧
        ∀ t ∈ simulation.final.lastUpdated, t.universalText?.isSome = true := by
  have updated : (∃ updated, updatedText simulation.final = .ok updated) ↔
      ∀ t ∈ simulation.final.lastUpdated, t.universalText?.isSome = true := by
    unfold updatedText
    cases simulation.final.lastUpdated with
    | none => simp
    | some t => cases found : t.universalText? <;> simp [found]
  rw [← updated]
  constructor
  · rintro ⟨report, done⟩
    obtain ⟨found, told, done⟩ := Outcome.bind_eq_ok_iff.mp done
    split at done
    case isTrue room => exact ⟨room, found, told⟩
    case isFalse => cases done
  · rintro ⟨room, found, told⟩
    rw [Simulation.report, told, Outcome.ok_bind]
    simp only [room]
    exact ⟨_, rfl⟩

/-! ## Agreement -/

/-- The number of products that are shown. -/
def shown (simulation : Simulation) : Nat :=
  simulation.recommendations.countP Recommendation.isShown

/-- The renderings of a simulation list its recommendations by rank, and its trace. -/
structure RendersAlike (simulation : Simulation) : Prop where
  /-- Ranks count from 1. -/
  ranks : simulation.recommendations.map Recommendation.rank =
    List.range' 1 simulation.recommendations.length
  /-- Behind a header there is a record for each product. -/
  csv : ∃ header records,
    Csv.read? (Csv.text simulation.recommendations) = some (header :: records) ∧
    records.map (List.take 3) =
      simulation.recommendations.map fun r => [toString r.rank, r.product.id, r.product.name]
  /-- There is an item for each product. -/
  report : ∀ label report, simulation.report label = .ok report →
    ∃ items, report.get? "recommendations" = some (.array items) ∧
      (items.map fun item => (item.get? "rank", item.get? "product_id", item.get? "product_name")) =
        simulation.recommendations.map fun r =>
          (some (.int r.rank), some (.string r.product.id), some (.string r.product.name))
  reported : ∀ label, (∃ report, simulation.report label = .ok report) ↔
    simulation.fits dumpLevels = true ∧
      ∀ t ∈ simulation.final.lastUpdated, t.universalText?.isSome = true
  /-- There is a row for each product, with its reasons behind it. -/
  table : ∀ showWhy, lines (Tables.ranking simulation.recommendations showWhy) =
    "" :: "=== Recommendations ===" ::
      if simulation.recommendations = [] then ["  (no active products in catalog)"]
      else "  Rank  Product                       Decision     Score" ::
        Tables.dashes 54 ::
        simulation.recommendations.flatMap (Tables.productLines showWhy)
  /-- A row tells the rank, the name, cut to 28 characters, the decision and the score. -/
  tableRows : ∀ r ∈ simulation.recommendations,
    Tables.cells [28, 8] (Tables.productRow r) =
      (r.rank, [cell 28 r.product.name, flushRight 8 r.decision.word,
        flushRight 8 (String.ofList (r.score.fixed 2))])
  /-- The products in front are shown and the other ones hidden. -/
  narrative : lines simulation.narrative =
    Narrative.headline simulation.trace.length :: simulation.trace.map Narrative.bullet ++
      "" :: "Recommendation Summary:" ::
        (Narrative.summaryLine "Showing"
          ((simulation.recommendations.take simulation.shown).map (·.product.name)) ++
        Narrative.summaryLine "Hidden"
          ((simulation.recommendations.drop simulation.shown).map (·.product.name)))
  /-- There is a row for each entry of the trace. -/
  trace : lines (Tables.trace simulation.trace) =
    "" :: "=== Rule Trace ===" ::
      if simulation.trace = [] then ["  (no rules triggered)"]
      else "    #  Rule                      Name                                  Effects" ::
        Tables.dashes 76 ::
        (simulation.trace.mapIdx fun k entry => Tables.ruleRow (k + 1) entry).flatMap lines
  /-- A row tells the number, the rule and its name, both cut, and what the rule did. It is one
      line unless there are line breaks in the rule's identifier. -/
  traceRows : ∀ number, ∀ entry ∈ simulation.trace,
    Tables.cells [24, 36] (Tables.ruleRow number entry) =
      (number, [cell 24 entry.ruleId, cell 36 entry.ruleName,
        if entry.effectDescription = "" then "(no changes)" else entry.effectDescription]) ∧
    (IsLine entry.ruleId →
      lines (Tables.ruleRow number entry) = [Tables.ruleRow number entry])

variable {rules : List Rule} {products : List Product} {profile : Profile} {events : List Event}
  {now : Timestamp} {precision : Int}

theorem run_eq_ok (ran : run rules products profile events now precision = .ok simulation) :
    Ranking.recommend products simulation.final precision = .ok simulation.recommendations ∧
      simulation.narrative = Narrative.ofRanking simulation.trace simulation.recommendations := by
  obtain ⟨evaluation, -, ran⟩ := Outcome.bind_eq_ok_iff.mp ran
  obtain ⟨recommendations, ranked, ran⟩ := Outcome.bind_eq_ok_iff.mp ran
  cases ran
  exact ⟨ranked, rfl⟩

theorem named_eq_take_drop {ranked : List Recommendation}
    (first : ranked.Pairwise fun a b => b.isShown = true → a.isShown = true) :
    Narrative.named .shown ranked =
        (ranked.take (ranked.countP Recommendation.isShown)).map (·.product.name) ∧
      Narrative.named .hidden ranked =
        (ranked.drop (ranked.countP Recommendation.isShown)).map (·.product.name) := by
  obtain ⟨front, back⟩ := filter_eq_take_drop first
  rw [← front, ← back]
  refine ⟨rfl, congrArg (List.map _) (List.filter_congr fun r _ => ?_)⟩
  rw [Recommendation.isShown]
  cases r.decision <;> rfl

/-- All renderings of a simulation agree, as long as no name or description has line breaks. -/
theorem run_renders_alike
    (ran : run rules products profile events now precision = .ok simulation)
    (names : ∀ r ∈ simulation.recommendations, IsLine r.product.name)
    (ruleNames : ∀ entry ∈ simulation.trace, IsLine entry.ruleName)
    (descriptions : ∀ entry ∈ simulation.trace, IsLine entry.effectDescription) :
    simulation.RendersAlike := by
  obtain ⟨ranked, told⟩ := run_eq_ok ran
  obtain ⟨ranks, first⟩ := Ranking.ranks_shown_first ranked
  obtain ⟨front, back⟩ := named_eq_take_drop first
  exact {
    ranks
    csv := ⟨_, _, Csv.read?_text _, by simp [List.map_map, Function.comp_def]⟩
    report := fun label report done => ⟨_, get?_report done, by
      rw [List.map_map]
      rfl⟩
    reported := report_returns_iff
    table := Tables.lines_ranking names
    tableRows := fun r _ => Tables.cells_productRow r
    narrative := by
      rw [told, Narrative.lines_ofRanking names ruleNames descriptions, front, back]
      rfl
    trace := Tables.lines_trace _
    traceRows := fun number entry member => ⟨Tables.cells_ruleRow number entry, fun id =>
      lines_of_isLine (Tables.isLine_ruleRow id (ruleNames entry member)
        (descriptions entry member) number)⟩ }

def welcome : Rule :=
  { id := "r-1", name := "Welcome", status := .active, event := .login
    effects := [.addTag (some "member")] }

def trial : ScoredProduct where
  product := { id := "trial", name := "Trial, first month", exclusions := ["member"] }
  decision := .hidden
  score := Binary64.zero false
  why := ["Excluded: customer has \"member\" tag"]
  breakdown := []
  excludedBy := some "member"

def card : ScoredProduct where
  product := { id := "card", name := "Credit card with a very long name" }
  decision := .shown
  score := Binary64.zero false
  why := []
  breakdown := []

theorem isDate_start : Calendar.IsDate 2026 2 5 := by decide

def start : Timestamp := .midnight ⟨2026, 2, 5, isDate_start⟩ none

def member : Profile :=
  { customerId := "C1", tags := ["member"], lastUpdated := some start }

def visit : Simulation where
  initial := { customerId := "C1" }
  final := member
  trace := [⟨"r-1", "Welcome", "Added tag \"member\""⟩]
  recommendations := [Ranking.place 1 card, Ranking.place 2 trial]
  narrative := "1 rule matched:\n• \"Welcome\": Added tag \"member\"\n\n" ++
    "Recommendation Summary:\nShowing: Credit card with a very long name\nHidden: Trial, first month"

/-- The product that the rule hides is the first one of the catalog and the last one in all
renderings. -/
theorem run_renders_alike_visit :
    run [welcome] [trial.product, card.product] { customerId := "C1" } [⟨.login, []⟩]
        start 2 = .ok visit ∧
      (∀ r ∈ visit.recommendations, IsLine r.product.name) ∧
      (∀ entry ∈ visit.trace, IsLine entry.ruleName) ∧
      (∀ entry ∈ visit.trace, IsLine entry.effectDescription) ∧
      lines (Tables.ranking visit.recommendations false) = [
        "",
        "=== Recommendations ===",
        "  Rank  Product                       Decision     Score",
        "  ------------------------------------------------------",
        "     1  Credit card with a very long     SHOWN      0.00",
        "     2  Trial, first month              HIDDEN      0.00"] ∧
      lines (Tables.trace visit.trace) = [
        "",
        "=== Rule Trace ===",
        "    #  Rule                      Name                                  Effects",
        "  ----------------------------------------------------------------------------",
        "    1  r-1                       Welcome                               " ++
          "Added tag \"member\""] ∧
      visit.RendersAlike := by
  have evaluated : evaluate [welcome] { customerId := "C1" } [⟨.login, []⟩] start =
      .ok ⟨member, visit.trace⟩ := by
    have sorted : Rule.sortActive [welcome] = [welcome] := by
      simp [Rule.sortActive, Rule.isActive, welcome]
    rw [evaluate, sorted]
    rfl
  have excluded : trial.product.scored member 2 = .ok trial := rfl
  have free : card.product.scored member 2 = .ok card := by
    have score : card.product.rankScore member 2 = .ok (Binary64.zero false) := by
      decide +kernel
    have apart : card.product.exclusion? member = none := rfl
    simp only [Product.scored, apart, score]
    rfl
  have ranked : Ranking.recommend [trial.product, card.product] member 2 =
      .ok visit.recommendations := by
    have catalog : Ranking.scoreCatalog [trial.product, card.product] member 2 =
        .ok [trial, card] :=
      Outcome.mapM_eq_ok_iff.mpr (.cons excluded (.cons free .nil))
    have placed : [trial, card].all (fun s => (Ranking.scoreKey s).2.place?.isSome) = true := by
      decide +kernel
    have first : Ranking.precedes (Ranking.scoreKey card) (Ranking.scoreKey trial) = true := by
      decide +kernel
    have ordered : Ranking.order Ranking.scoreKey [trial, card] = [card, trial] := by
      simp [Ranking.order, placed, List.mergeSort, List.MergeSort.Internal.splitInTwo, first]
    rw [Ranking.recommend_of_scoreCatalog catalog, ordered]
    rfl
  have ran : run [welcome] [trial.product, card.product] { customerId := "C1" } [⟨.login, []⟩]
      start 2 = .ok visit := by
    rw [run, evaluated, Outcome.ok_bind]
    dsimp only
    rw [ranked]
    rfl
  have names : ∀ r ∈ visit.recommendations, IsLine r.product.name := by decide
  have ruleNames : ∀ entry ∈ visit.trace, IsLine entry.ruleName := by decide
  have descriptions : ∀ entry ∈ visit.trace, IsLine entry.effectDescription := by decide
  have alike := run_renders_alike ran names ruleNames descriptions
  refine ⟨ran, names, ruleNames, descriptions, ?_, ?_, alike⟩
  · exact (alike.table false).trans (by decide +kernel)
  · exact alike.trace.trans (by decide +kernel)

end Simulation

end NextOffer
