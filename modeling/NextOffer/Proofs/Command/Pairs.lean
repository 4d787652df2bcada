import NextOffer.Log.Output
import NextOffer.Proofs.Console

/-! # Jobs on one disk

Jobs that differ in what they print, as a command does with JSON and without, and in nothing else
end alike and leave one disk when they start on one. What is so of each step is so of the job.
-/

namespace NextOffer.Console

variable {α β : Type}

/-- From consoles with one disk both jobs have the same outcome, which is no refusal, and leave
one disk. -/
def Paired (job job' : Job (StateM Console) α) : Prop :=
  ∀ around (console console' : Console), console.disk = console'.disk →
    ∃ result reached reached', console.run around job = (result, reached) ∧
      console'.run around job' = (result, reached') ∧ reached.disk = reached'.disk ∧
      result ≠ .error .refused

namespace Paired

variable {job job' : Job (StateM Console) α} {next next' : α → Job (StateM Console) β}

theorem not_refused {value : α} : (.ok value : Except Halt α) ≠ .error .refused := nofun

theorem pure (value : α) : Paired (Pure.pure value) (Pure.pure value) :=
  fun _ console console' same => ⟨_, console, console', rfl, rfl, same, not_refused⟩

theorem crash (fault : Fault) : Paired (Job.crash fault : Job _ α) (Job.crash fault) :=
  fun _ console console' same => ⟨_, console, console', rfl, rfl, same, nofun⟩

theorem bind (first : Paired job job') (later : ∀ value, Paired (next value) (next' value)) :
    Paired (job >>= next) (job' >>= next') := by
  intro around console console' same
  obtain ⟨result, between, between', ran, ran', same, kept⟩ :=
    first around console console' same
  cases result with
  | ok value =>
      rw [run_bind_of_ok ran, run_bind_of_ok ran']
      exact later value around between between' same
  | error halt =>
      refine ⟨.error halt, between, between', ?_, ?_, same, ?_⟩
      · rw [run_bind, ran]
      · rw [run_bind, ran']
      · rintro ⟨⟩
        exact kept rfl

theorem need (result : Except Fault α) : Paired (Job.need result) (Job.need result) := by
  cases result with
  | ok value => exact pure value
  | error fault => exact crash fault

theorem say (line line' : String) : Paired (Job.say line) (Job.say line') :=
  fun _ _ _ same => ⟨_, _, _, rfl, rfl, same, not_refused⟩

theorem note (line line' : String) : Paired (Job.note line) (Job.note line') :=
  fun _ _ _ same => ⟨_, _, _, rfl, rfl, same, not_refused⟩

theorem tell (line : String) (apart apart' : Bool) :
    Paired (if apart then Job.complain line else Job.say line)
      (if apart' then Job.complain line else Job.say line) := by
  cases apart <;> cases apart' <;>
    exact fun _ _ _ same => ⟨_, _, _, rfl, rfl, same, not_refused⟩

theorem act_look (path : FilePath) : Paired (Job.act (·.look path)) (Job.act (·.look path)) :=
  fun _ console console' same =>
    ⟨.ok (console.disk.look path), console, console', rfl, by rw [same]; rfl, same, not_refused⟩

theorem act_alter (change : Disk → Except DiskFault Disk) :
    Paired (Job.act fun _ => alter change) (Job.act fun _ => alter change) := by
  intro around console console' same
  rw [run_act, run_act, alter, alter, ← same]
  cases change console.disk with
  | ok disk => exact ⟨_, _, _, rfl, rfl, rfl, not_refused⟩
  | error fault => exact ⟨_, _, _, rfl, rfl, same, not_refused⟩

theorem attempt {action : Host (StateM Console) → StateM Console (Except DiskFault α)}
    (first : Paired (Job.act action) (Job.act action)) :
    Paired (Job.attempt action) (Job.attempt action) :=
  first.bind fun result => by
    cases result with
    | ok value => exact pure value
    | error fault => exact crash _

theorem createDirectory (path : FilePath) :
    Paired (Job.act (·.createDirectory path)) (Job.act (·.createDirectory path)) :=
  act_alter (Disk.createDirectory · path)

theorem write (path : FilePath) (text : String) :
    Paired (Job.write path text) (Job.write path text) :=
  attempt (act_alter (Disk.write · path text))

theorem append (path : FilePath) (text : String) :
    Paired (Job.append path text) (Job.append path text) :=
  attempt (act_alter (Disk.append · path text))

theorem provide (path : FilePath) : Paired (Job.provide path) (Job.provide path) := by
  refine (createDirectory path).bind fun created => ?_
  split
  case h_1 | h_2 => exact pure _
  case h_3 =>
      refine (attempt (act_look path)).bind fun found => ?_
      split
      case h_1 => exact pure _
      case h_2 => exact crash _

theorem makeDirectories (path : FilePath) :
    Paired (Job.makeDirectories path) (Job.makeDirectories path) := by
  unfold Job.makeDirectories
  induction path.names.reverse with
  | nil => exact pure ()
  | cons name above ih =>
      refine (provide _).bind fun provided => ?_
      split
      case isTrue => exact pure ()
      case isFalse =>
          refine ih.bind fun _ => (provide _).bind fun provided => ?_
          split
          case isTrue => exact pure ()
          case isFalse => exact crash _

theorem read : Paired read read :=
  fun _ console console' same => ⟨_, console, console', rfl, rfl, same, not_refused⟩

theorem record (settings : LogSettings) (records : List Log.Record) :
    Paired (Log.record settings records) (Log.record settings records) := by
  refine read.bind fun host => ?_
  induction records.filter (Log.wanted settings) with
  | nil => exact pure ()
  | cons first rest ih =>
      refine ((note _ _).bind fun _ => ?_).bind fun _ => ih
      split
      case h_1 => exact pure ()
      case h_2 path _ => exact append path _

end Paired

end NextOffer.Console
