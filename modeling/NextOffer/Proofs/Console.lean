import NextOffer.Console
import NextOffer.Proofs.Disk

/-! # Jobs on a console

A job on a console is a sequence of steps, each from where the step before it left the console.
It ends with the first step that halts. What every step of a job preserves, the job preserves,
whether it halts or not.
-/

namespace NextOffer

deriving instance DecidableEq for LoadFault, Fault, Halt

/-- The program in a directory below the root of the disk, with no variables set. -/
def Surroundings.bare (clock : Timestamp) : Surroundings where
  clock := clock
  home := ⟨"/", ["program"]⟩
  variablesOf _ _ := []

/-- A console with an empty settings file for that program, and with other files. -/
def Console.project (files : Fields Entry) : Console where
  disk := ⟨("/config", .directory) :: ("/config/default.toml", .file "") :: files⟩

theorem Job.crash_bind {m : Type → Type} [Monad m] [LawfulMonad m] {α β : Type} (fault : Fault)
    (next : α → Job m β) : Job.crash fault >>= next = Job.crash fault := by
  funext host
  simp [Job.crash, bind, ReaderT.bind, ExceptT.bind, ExceptT.mk, ExceptT.bindCont, throw,
    throwThe, MonadExceptOf.throw, liftM, monadLift, MonadLift.monadLift]

namespace Console

variable {α β : Type} {around : Surroundings} {console reached : Console}

theorem run_pure (value : α) :
    console.run around (pure value) = (.ok value, console) := rfl

theorem run_bind (job : Job (StateM Console) α) (next : α → Job (StateM Console) β) :
    console.run around (job >>= next) =
      match console.run around job with
      | (.ok value, reached) => reached.run around (next value)
      | (.error halt, reached) => (.error halt, reached) := by
  unfold run
  rcases first : job (host around) console with ⟨_ | _, reached⟩ <;>
    simp only [bind, ReaderT.bind, ExceptT.bind, ExceptT.mk, StateT.bind, first] <;> rfl

theorem run_bind_of_ok {job : Job (StateM Console) α} {value : α}
    (first : console.run around job = (.ok value, reached))
    (next : α → Job (StateM Console) β) :
    console.run around (job >>= next) = reached.run around (next value) := by
  rw [run_bind, first]

theorem run_bind_eq_ok_iff {job : Job (StateM Console) α} {next : α → Job (StateM Console) β}
    {result : β} :
    console.run around (job >>= next) = (.ok result, reached) ↔
      ∃ value between, console.run around job = (.ok value, between) ∧
        between.run around (next value) = (.ok result, reached) := by
  rw [run_bind]
  split <;> rename_i first <;> simp [first]

theorem run_say (line : String) :
    console.run around (Job.say line) =
      (.ok (), { console with output := console.output ++ (Text.withoutControls line ++ "\n") }) :=
  rfl

theorem run_act (action : Host (StateM Console) → StateM Console α) :
    console.run around (Job.act action) =
      (.ok (action (host around) console).1,
        (action (host around) console).2) := rfl

theorem run_attempt (action : Host (StateM Console) → StateM Console (Except DiskFault α)) :
    console.run around (Job.attempt action) =
      match action (host around) console with
      | (.ok result, reached) => (.ok result, reached)
      | (.error fault, reached) => (.error (.crashed (.disk fault)), reached) := by
  rw [Job.attempt, run_bind_of_ok (run_act action)]
  rcases action (host around) console with ⟨_ | _, _⟩ <;> rfl

theorem run_look_eq_ok_iff {path : FilePath} {found : Option Entry} :
    console.run around (Job.look path) = (.ok found, reached) ↔
      console.disk.look path = .ok found ∧ reached = console := by
  have looked : (host around).look path console = (console.disk.look path, console) := rfl
  rw [Job.look, run_attempt, looked]
  cases console.disk.look path <;> simp [eq_comm]

theorem run_read {path : FilePath} {text : String} (held : console.disk.Holds path text) :
    console.run around (Job.read? path) = (.ok (some text), console) := by
  have looked : console.run around (Job.look path) =
      (.ok (some (.file text)), console) := run_look_eq_ok_iff.mpr ⟨held, rfl⟩
  rw [Job.read?, run_bind_of_ok looked]
  rfl

theorem run_need_eq_ok_iff {result : Except Fault α} {value : α} :
    console.run around (Job.need result) = (.ok value, reached) ↔
      result = .ok value ∧ reached = console := by
  cases result with
  | ok found =>
      change console.run around (pure found) = _ ↔ _
      simp [run_pure, eq_comm]
  | error fault =>
      constructor
      · intro crashed
        cases crashed
      · rintro ⟨⟨⟩, -⟩

theorem run_alter_eq_ok_iff (change : Disk → Except DiskFault Disk) :
    console.run around (Job.attempt fun _ => alter change) = (.ok (), reached) ↔
      ∃ disk, change console.disk = .ok disk ∧ reached = { console with disk } := by
  rw [run_attempt, alter]
  cases change console.disk <;> simp [eq_comm]

theorem run_write_eq_ok_iff {path : FilePath} {text : String} :
    console.run around (Job.write path text) = (.ok (), reached) ↔
      ∃ disk, console.disk.write path text = .ok disk ∧ reached = { console with disk } :=
  run_alter_eq_ok_iff (Disk.write · path text)

theorem run_append_eq_ok_iff {path : FilePath} {text : String} :
    console.run around (Job.append path text) = (.ok (), reached) ↔
      ∃ disk, console.disk.append path text = .ok disk ∧ reached = { console with disk } :=
  run_alter_eq_ok_iff (Disk.append · path text)

/-- A console that is good is still good after the job. -/
def Preserves (good : Console → Prop) (job : Job (StateM Console) α) : Prop :=
  ∀ around console, good console → good (Console.run console around job).2

namespace Preserves

variable {good : Console → Prop}

theorem pure (value : α) : Preserves good (Pure.pure value) := fun _ _ fine => fine

theorem throw (halt : Halt) : Preserves good (throw halt : Job (StateM Console) α) :=
  fun _ _ fine => fine

theorem need (result : Except Fault α) :
    Preserves good (Job.need result : Job (StateM Console) α) := by
  cases result with
  | ok value => exact pure value
  | error fault => exact throw _

theorem read : Preserves good (read : Job (StateM Console) (Host (StateM Console))) :=
  fun _ _ fine => fine

theorem bind {job : Job (StateM Console) α} {next : α → Job (StateM Console) β}
    (first : Preserves good job) (later : ∀ value, Preserves good (next value)) :
    Preserves good (job >>= next) := by
  intro around console fine
  have between := first around console fine
  rw [run_bind]
  split <;> rename_i reached ran <;> rw [ran] at between
  · exact later _ _ _ between
  · exact between

theorem attempt {action : Host (StateM Console) → StateM Console (Except DiskFault α)}
    (first : Preserves good (Job.act action)) : Preserves good (Job.attempt action) :=
  first.bind fun result => by cases result <;> first | exact pure _ | exact throw _

theorem act_look (path : FilePath) : Preserves good (Job.act (·.look path)) :=
  fun _ _ fine => fine

end Preserves

theorem preserves_alter {good : Console → Prop} (change : Disk → Except DiskFault Disk)
    (kept : ∀ console disk, good console → change console.disk = .ok disk →
      good { console with disk }) :
    Preserves good (Job.act fun _ => alter change) := by
  intro around console fine
  change good (alter change console).2
  unfold alter
  split
  case h_1 disk changed => exact kept console disk fine changed
  case h_2 => exact fine

end Console

end NextOffer
