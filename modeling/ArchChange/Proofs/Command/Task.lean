import ArchChange.Command.Console
/-!
What the parts of a command do with files. A part goes on from where the one before it has ended,
and the first that fails ends the command. The lines that they write are of no account here.
-/
namespace ArchChange.Command

/-! The disk. -/

namespace Disk

variable {d d' : Disk} {p : Path}

theorem bind_eq_ok {α β : Type} {x : Except Fault α} {f : α → Except Fault β} {b : β}
    (h : x >>= f = .ok b) : ∃ a, x = .ok a ∧ f a = .ok b := by
  cases x with
  | error fault => cases h
  | ok a => exact ⟨a, rfl, h⟩

theorem files_createDirectory (h : d.createDirectory p = .ok d') : d'.files = d.files := by
  obtain ⟨directory, -, h⟩ := bind_eq_ok h
  cases hname : p.name? with
  | none =>
    rw [hname] at h
    cases h
    rfl
  | some name =>
    simp only [hname] at h
    split at h
    · cases h
      rfl
    · split at h
      · cases h
      · split at h
        · cases h
        · cases h
          rfl

/-- Creating directories leaves the files as they are. -/
theorem files_createAlong {pieces : List String} (h : d.createAlong pieces = .ok d') :
    d'.files = d.files := by
  induction pieces generalizing d d' with
  | nil =>
    cases h
    rfl
  | cons piece before ih =>
    rw [createAlong] at h
    split at h
    · exact ih h
    · split at h
      · obtain ⟨e, he, h⟩ := bind_eq_ok h
        rw [files_createDirectory h, ih he]
      · exact files_createDirectory h

/-- The place where a file is saved that is given a path, if the directories before it can be
created and it can be moved there. -/
def savePlace? (d : Disk) (p : Path) : Option Place := do
  let d ← (p.parent?.elim (.ok d) d.createDirectories).toOption
  (d.movePlace p).toOption

theorem ok_of_toOption {ε α : Type} {x : Except ε α} {a : α} (h : x.toOption = some a) :
    x = .ok a := by
  cases x with
  | error e => cases h
  | ok b =>
    cases h
    rfl

end Disk

/-- The files on a disk, and where files were written. -/
structure Files where
  disk : Disk
  written : List Place

def Console.files (c : Console) : Files :=
  ⟨c.disk, c.written⟩

namespace Task

variable {α β : Type} {s s' s'' : Files}

/-- From the files `s` the part comes to the result `r`, and leaves the files `s'`. -/
def Ends (t : Task α) (s : Files) (r : Except Failure α) (s' : Files) : Prop :=
  ∀ c : Console, c.files = s → (t.run c).1 = r ∧ (t.run c).2.files = s'

theorem run_bind (x : Task α) (f : α → Task β) (c : Console) :
    (x >>= f).run c = match x.run c with
      | (.ok a, c') => (f a).run c'
      | (.error failure, c') => (.error failure, c') := by
  change ExceptT.bindCont f (x.run c).1 (x.run c).2 = _
  rcases x.run c with ⟨made, c'⟩
  cases made <;> rfl

namespace Ends

theorem pure (a : α) : Ends (Pure.pure a) s (.ok a) s :=
  fun _ h => ⟨rfl, h⟩

theorem bind {x : Task α} {f : α → Task β} {a : α} {r : Except Failure β}
    (hx : x.Ends s (.ok a) s') (hf : (f a).Ends s' r s'') : (x >>= f).Ends s r s'' := by
  intro c hc
  obtain ⟨hresult, hfiles⟩ := hx c hc
  rw [run_bind]
  rcases hrun : x.run c with ⟨made, c'⟩
  rw [hrun] at hresult hfiles
  obtain rfl : made = .ok a := hresult
  exact hf c' hfiles

theorem bind_error {x : Task α} {failure : Failure} (hx : x.Ends s (.error failure) s')
    (f : α → Task β) : (x >>= f).Ends s (.error failure) s' := by
  intro c hc
  obtain ⟨hresult, hfiles⟩ := hx c hc
  rw [run_bind]
  rcases hrun : x.run c with ⟨made, c'⟩
  rw [hrun] at hresult hfiles
  obtain rfl : made = .error failure := hresult
  exact ⟨rfl, hfiles⟩

/-- A part that looks at the console first. -/
theorem get_bind {f : Console → Task β} {r : Except Failure β}
    (hf : ∀ c : Console, c.files = s → (f c).Ends s r s') : (get >>= f).Ends s r s' :=
  fun c hc => hf c hc c hc

theorem ofExcept (r : Except Failure α) : (ofExcept r).Ends s r s :=
  fun _ h => ⟨rfl, h⟩

theorem throw (failure : Failure) :
    Ends (MonadExcept.throw failure : Task α) s (.error failure) s :=
  fun _ h => ⟨rfl, h⟩

theorem say (lines : List String) : (say lines).Ends s (.ok ()) s :=
  fun _ h => ⟨rfl, h⟩

theorem notify (lines : List String) : (notify lines).Ends s (.ok ()) s :=
  fun _ h => ⟨rfl, h⟩

theorem change {operation : Disk → Except Fault Disk} {d : Disk}
    (h : operation s.disk = .ok d) (wrap : Fault → Failure) :
    (change operation wrap).Ends s (.ok ()) ⟨d, s.written⟩ := by
  refine get_bind fun c hc => ?_
  rw [show c.disk = s.disk from congrArg Files.disk hc, h]
  refine (ofExcept (.ok d)).bind fun c hc => ⟨rfl, ?_⟩
  exact congrArg (Files.mk d) (congrArg Files.written hc)

theorem put {locate : Disk → Except Fault Place} {place : Place}
    (h : locate s.disk = .ok place) (wrap : Fault → Failure) (text : String) :
    (put locate wrap text).Ends s (.ok ())
      ⟨s.disk.put place (Text.encode text), s.written ++ [place]⟩ := by
  refine get_bind fun c hc => ?_
  rw [show c.disk = s.disk from congrArg Files.disk hc, h]
  refine (ofExcept (.ok place)).bind fun c hc => ⟨rfl, ?_⟩
  cases hc
  rfl

theorem prepare {path : Path} {d : Disk}
    (h : path.parent?.elim (.ok s.disk) s.disk.createDirectories = .ok d) :
    (prepare path).Ends s (.ok ()) ⟨d, s.written⟩ ∧ d.files = s.disk.files := by
  unfold Task.prepare
  cases hparent : path.parent? with
  | none =>
    rw [hparent] at h
    cases h
    exact ⟨pure (), rfl⟩
  | some parent =>
    rw [hparent] at h
    exact ⟨change h _, Disk.files_createAlong h⟩

/-- Saving puts a text at a place and leaves what is elsewhere. -/
theorem save {path : Path} {place : Place} (h : s.disk.savePlace? path = some place)
    (text : String) :
    ∃ d, (save path text).Ends s (.ok ()) ⟨d, s.written ++ [place]⟩ ∧
      ∀ q, d.content? q = if q = place then some (Text.encode text) else s.disk.content? q := by
  obtain ⟨d, hprepared, hplace⟩ := Option.bind_eq_some_iff.mp h
  obtain ⟨hprepare, hfiles⟩ := prepare (Disk.ok_of_toOption hprepared)
  have hmoved : d.movePlace path = .ok place := Disk.ok_of_toOption hplace
  refine ⟨d.put place (Text.encode text), hprepare.bind (put hmoved _ text), fun q => ?_⟩
  rw [Disk.content?_put, Disk.content?, hfiles, ← Disk.content?]

end Ends

end Task

end ArchChange.Command
