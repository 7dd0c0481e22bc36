import Mathlib.Logic.Function.Basic
import Molch.Foundation.Runs

/-!
Memory that is protected while it is not used. A storage can be read or written only as far
as it is unlocked. An unlocker opens a storage for a scope and locks it at the end of the
scope, also when the scope is left early. Unlockers are not counted: the end of an inner
scope locks the storage that an outer one still believes to be open.
-/

namespace Guarded

/-- What can be done with a storage. -/
inductive Access where
  | noAccess
  | readOnly
  | readWrite
  deriving DecidableEq, Repr

variable {Storage Field : Type*}

/-- What happens to the storages. Fields are the parts of a storage. -/
inductive Event (Storage Field : Type*) where
  | allocate (storage : Storage)
  | lock (storage : Storage)
  | unlock (storage : Storage)
  | unlockReadwrite (storage : Storage)
  | read (storage : Storage) (field : Field)
  | write (storage : Storage) (field : Field)
  deriving DecidableEq, Repr

namespace Event

/-- Everything but the accesses is possible at any time. -/
def Permitted (memory : Storage → Access) : Event Storage Field → Prop
  | .read storage _ => memory storage ≠ .noAccess
  | .write storage _ => memory storage = .readWrite
  | _ => True

instance (memory : Storage → Access) (event : Event Storage Field) :
    Decidable (event.Permitted memory) := by
  cases event
  case read => exact inferInstanceAs (Decidable (_ ≠ _))
  case write => exact inferInstanceAs (Decidable (_ = _))
  all_goals exact inferInstanceAs (Decidable True)

variable [DecidableEq Storage]

/-- The protection is set, whatever it has been before. -/
def step (memory : Storage → Access) :
    Event Storage Field → Unit × (Storage → Access)
  | .allocate storage => ((), Function.update memory storage .readWrite)
  | .lock storage => ((), Function.update memory storage .noAccess)
  | .unlock storage => ((), Function.update memory storage .readOnly)
  | .unlockReadwrite storage => ((), Function.update memory storage .readWrite)
  | .read _ _ | .write _ _ => ((), memory)

end Event

-- two unlockers in one another: the storage is locked when the inner one ends
example : ¬ (Event.read 0 ()).Permitted (Runs.final Event.step (fun _ : ℕ => .noAccess)
    [.unlock 0, .unlock 0, .lock 0, .read 1 ()]) := by decide

/-- Code that accesses storages, with its scopes. An allocated storage is locked before
anything else happens. -/
inductive Block (Storage Field : Type*) where
  | done
  | allocate (storage : Storage) (rest : Block Storage Field)
  | read (storage : Storage) (field : Field) (rest : Block Storage Field)
  | write (storage : Storage) (field : Field) (rest : Block Storage Field)
  | unlocker (readWrite : Bool) (storage : Storage) (scope rest : Block Storage Field)

namespace Block

/-- What the constructor of an unlocker does. -/
def unlocking (readWrite : Bool) (storage : Storage) : Event Storage Field :=
  if readWrite then .unlockReadwrite storage else .unlock storage

/-- What happens when the block is run to its end. -/
def trace : Block Storage Field → List (Event Storage Field)
  | .done => []
  | .allocate storage rest => .allocate storage :: .lock storage :: rest.trace
  | .read storage field rest => .read storage field :: rest.trace
  | .write storage field rest => .write storage field :: rest.trace
  | .unlocker readWrite storage scope rest =>
      unlocking readWrite storage :: (scope.trace ++ .lock storage :: rest.trace)

def append : Block Storage Field → Block Storage Field → Block Storage Field
  | .done, next => next
  | .allocate storage rest, next => .allocate storage (rest.append next)
  | .read storage field rest, next => .read storage field (rest.append next)
  | .write storage field rest, next => .write storage field (rest.append next)
  | .unlocker readWrite storage scope rest, next =>
      .unlocker readWrite storage scope (rest.append next)

@[simp] theorem trace_append (block next : Block Storage Field) :
    (block.append next).trace = block.trace ++ next.trace := by
  induction block with
  | done => rfl
  | allocate _ _ ih => simp [append, trace, ih]
  | read _ _ _ ih => simp [append, trace, ih]
  | write _ _ _ ih => simp [append, trace, ih]
  | unlocker _ _ _ _ _ ih => simp [append, trace, ih]

/-- What is executed of a block that may be left at any point, by an error or an exception. A
scope that is left early locks its storage, and what comes after it is not executed. -/
inductive Cut : Block Storage Field → Block Storage Field → Prop
  | done {block : Block Storage Field} : Cut block .done
  | allocate {storage : Storage} {rest executed : Block Storage Field} (h : Cut rest executed) :
      Cut (.allocate storage rest) (.allocate storage executed)
  | read {storage : Storage} {field : Field} {rest executed : Block Storage Field}
      (h : Cut rest executed) : Cut (.read storage field rest) (.read storage field executed)
  | write {storage : Storage} {field : Field} {rest executed : Block Storage Field}
      (h : Cut rest executed) : Cut (.write storage field rest) (.write storage field executed)
  | inside {readWrite : Bool} {storage : Storage} {scope executed rest : Block Storage Field}
      (h : Cut scope executed) :
      Cut (.unlocker readWrite storage scope rest) (.unlocker readWrite storage executed .done)
  | outside {readWrite : Bool} {storage : Storage} {scope rest executed : Block Storage Field}
      (h : Cut rest executed) :
      Cut (.unlocker readWrite storage scope rest) (.unlocker readWrite storage scope executed)

theorem Cut.refl (block : Block Storage Field) : Cut block block := by
  induction block with
  | done => exact .done
  | allocate _ _ ih => exact .allocate ih
  | read _ _ _ ih => exact .read ih
  | write _ _ _ ih => exact .write ih
  | unlocker _ _ _ _ _ ih => exact .outside ih

variable [DecidableEq Storage]

def Guards (memory : Storage → Access) (block : Block Storage Field) : Prop :=
  Runs.Admitted Event.step Event.Permitted memory block.trace

def after (memory : Storage → Access) (block : Block Storage Field) : Storage → Access :=
  Runs.final Event.step memory block.trace

/-- The block opens itself what it accesses. -/
def SelfContained (block : Block Storage Field) : Prop :=
  ∀ memory, block.Guards memory

def opened (readWrite : Bool) : Access :=
  if readWrite then .readWrite else .readOnly

theorem step_unlocking (memory : Storage → Access) (readWrite : Bool) (storage : Storage) :
    Event.step memory (unlocking readWrite storage : Event Storage Field) =
      ((), Function.update memory storage (opened readWrite)) := by
  cases readWrite with
  | false => rfl
  | true => rfl

omit [DecidableEq Storage] in
theorem permitted_unlocking (memory : Storage → Access) (readWrite : Bool) (storage : Storage) :
    (unlocking readWrite storage : Event Storage Field).Permitted memory := by
  cases readWrite with
  | false => trivial
  | true => trivial

section Rules

variable {memory : Storage → Access} {readWrite : Bool} {storage : Storage} {field : Field}
  {block next scope rest executed : Block Storage Field}

theorem after_allocate : (allocate storage rest).after memory =
    rest.after (Function.update memory storage .noAccess) := by
  rw [after, trace, Runs.final, Runs.final]
  simp only [Event.step, Function.update_idem]
  rfl

theorem after_unlocker : (unlocker readWrite storage scope rest).after memory =
    rest.after (Function.update
      (scope.after (Function.update memory storage (opened readWrite))) storage .noAccess) := by
  rw [after, trace, Runs.final, Runs.final_append, step_unlocking]
  rfl

@[simp] theorem guards_done : (done : Block Storage Field).Guards memory :=
  .nil memory

@[simp] theorem guards_allocate : (allocate storage rest).Guards memory ↔
    rest.Guards (Function.update memory storage .noAccess) := by
  rw [Guards, trace, Runs.admitted_cons, Runs.admitted_cons]
  simp only [Event.step, Event.Permitted, Function.update_idem, true_and]
  rfl

@[simp] theorem guards_read : (read storage field rest).Guards memory ↔
    memory storage ≠ .noAccess ∧ rest.Guards memory := by
  rw [Guards, trace, Runs.admitted_cons]
  rfl

@[simp] theorem guards_write : (write storage field rest).Guards memory ↔
    memory storage = .readWrite ∧ rest.Guards memory := by
  rw [Guards, trace, Runs.admitted_cons]
  rfl

@[simp] theorem guards_unlocker : (unlocker readWrite storage scope rest).Guards memory ↔
    scope.Guards (Function.update memory storage (opened readWrite)) ∧
      rest.Guards (Function.update
        (scope.after (Function.update memory storage (opened readWrite))) storage .noAccess) := by
  rw [Guards, trace, Runs.admitted_cons, Runs.admitted_append, Runs.admitted_cons,
    step_unlocking]
  constructor
  · rintro ⟨-, hscope, -, hrest⟩
    exact ⟨hscope, hrest⟩
  · rintro ⟨hscope, hrest⟩
    exact ⟨permitted_unlocking memory readWrite storage, hscope, trivial, hrest⟩

theorem after_eq (memory : Storage → Access) (block : Block Storage Field) (other : Storage) :
    block.after memory other = .noAccess ∨ block.after memory other = memory other := by
  induction block generalizing memory with
  | done => exact .inr rfl
  | allocate storage rest ih =>
      rw [after_allocate]
      refine (ih _).elim .inl fun hrest => ?_
      rw [hrest]
      rcases eq_or_ne other storage with rfl | hne
      · exact .inl (Function.update_self _ _ _)
      · exact .inr (Function.update_of_ne hne _ _)
  | read storage field rest ih => exact ih memory
  | write storage field rest ih => exact ih memory
  | unlocker readWrite storage scope rest ihScope ihRest =>
      rw [after_unlocker]
      refine (ihRest _).elim .inl fun hrest => ?_
      rw [hrest]
      rcases eq_or_ne other storage with rfl | hne
      · exact .inl (Function.update_self _ _ _)
      · rw [Function.update_of_ne hne]
        refine (ihScope _).imp_right fun hscope => ?_
        rw [hscope, Function.update_of_ne hne]

theorem Cut.guards (h : Cut block executed) (hblock : block.Guards memory) :
    executed.Guards memory := by
  induction h generalizing memory with
  | done => exact guards_done
  | allocate _ ih => exact guards_allocate.mpr (ih (guards_allocate.mp hblock))
  | read _ ih =>
      obtain ⟨hopen, hrest⟩ := guards_read.mp hblock
      exact guards_read.mpr ⟨hopen, ih hrest⟩
  | write _ ih =>
      obtain ⟨hopen, hrest⟩ := guards_write.mp hblock
      exact guards_write.mpr ⟨hopen, ih hrest⟩
  | inside _ ih => exact guards_unlocker.mpr ⟨ih (guards_unlocker.mp hblock).1, guards_done⟩
  | outside _ ih =>
      obtain ⟨hscope, hrest⟩ := guards_unlocker.mp hblock
      exact guards_unlocker.mpr ⟨hscope, ih hrest⟩

theorem Guards.append (h : block.Guards memory) (hnext : next.SelfContained) :
    (block.append next).Guards memory := by
  rw [Guards, trace_append]
  exact Runs.admitted_append.mpr ⟨h, hnext _⟩

theorem selfContained_done : (done : Block Storage Field).SelfContained :=
  fun _ => guards_done

theorem SelfContained.append (h : block.SelfContained) (hnext : next.SelfContained) :
    (block.append next).SelfContained :=
  fun memory => (h memory).append hnext

theorem SelfContained.allocate (h : rest.SelfContained) (storage : Storage) :
    (Block.allocate storage rest).SelfContained :=
  fun _ => guards_allocate.mpr (h _)

theorem SelfContained.unlocker
    (hscope : ∀ memory, memory storage = opened readWrite → scope.Guards memory)
    (hrest : rest.SelfContained) : (Block.unlocker readWrite storage scope rest).SelfContained :=
  fun _ => guards_unlocker.mpr ⟨hscope _ (Function.update_self _ _ _), hrest _⟩

/-- Storages that are all locked are accessed only while they are open, and all are locked
again, wherever the block is left. -/
theorem SelfContained.cut (h : block.SelfContained) (hcut : Cut block executed) :
    executed.Guards (fun _ => .noAccess) ∧
      ∀ storage, executed.after (fun _ => .noAccess) storage = .noAccess := by
  refine ⟨hcut.guards (h _), ?_⟩
  intro storage
  rcases after_eq (fun _ => .noAccess) executed storage with hlocked | hsame
  · exact hlocked
  · exact hsame

end Rules

end Block

end Guarded
