/-
This file gives the simulation rule: a machine whose steps another machine can follow has runs that it can follow.
-/

import Mathlib.Data.List.Forall2
import FastDownloader.Foundation.Session

namespace FastDownloader.Foundation

variable {State Label Other OtherLabel : Type*} {step : Step State Label} {guard : State → Label → Prop}
  {follow : Step Other OtherLabel} {admits : Other → OtherLabel → Prop}

/-- When some steps of the other machine follow each guarded step, some run of it follows each guarded run. -/
theorem Run.followed {related : State → Other → Prop} {first last : State} {labels : List Label}
    (run : Run step guard first labels last)
    (follows : ∀ before label after other, related before other → guard before label →
      step before label = some after → ∃ next, Reaches follow admits other next ∧ related after next)
    {other : Other} (initial : related first other) :
    ∃ next, Reaches follow admits other next ∧ related last next := by
  induction run generalizing other with
  | nil => exact ⟨other, .refl other, initial⟩
  | cons admitted taken _ ih =>
      obtain ⟨middle, start, kept⟩ := follows _ _ _ _ initial admitted taken
      obtain ⟨next, rest, ends⟩ := ih kept
      exact ⟨next, start.trans rest, ends⟩

section Sessions

variable {Store Process OtherStore OtherProcess Job Outcome : Type*}

/-- These are the obligations to follow the sessions of one program by sessions of another, one for each kind of
move. -/
structure Program.Follows (program : Program Store Process Job Label Outcome)
    (guard : Session Store Process Job → Move Job Label → Prop)
    (other : Program OtherStore OtherProcess Job Label Outcome)
    (admits : Session OtherStore OtherProcess Job → Move Job Label → Prop)
    (idle : Store → OtherStore → Prop) (busy : Job → Store × Process → OtherStore × OtherProcess → Prop) :
    Prop where
  start : ∀ store shown job, idle store shown → guard ⟨store, none⟩ (.start job) →
    admits ⟨shown, none⟩ (.start job) ∧ busy job (store, program.start job) (shown, other.start job)
  step : ∀ job before shown label after, busy job before shown →
    guard ⟨before.1, some (job, before.2)⟩ (.step label) → program.step job before label = some after →
    ∃ next, busy job after next ∧ (next = shown ∨
      admits ⟨shown.1, some (job, shown.2)⟩ (.step label) ∧ other.step job shown label = some next)
  finish : ∀ job before shown outcome, busy job before shown → guard ⟨before.1, some (job, before.2)⟩ .finish →
    program.outcome before.2 = some outcome → admits ⟨shown.1, some (job, shown.2)⟩ .finish ∧
      other.outcome shown.2 = some outcome ∧ idle before.1 shown.1
  kill : ∀ job before shown, busy job before shown → guard ⟨before.1, some (job, before.2)⟩ .kill →
    admits ⟨shown.1, some (job, shown.2)⟩ .kill ∧ idle before.1 shown.1

/-- Two sessions are at the same point of their programs. -/
def Session.Beside (idle : Store → OtherStore → Prop)
    (busy : Job → Store × Process → OtherStore × OtherProcess → Prop) :
    Session Store Process Job → Session OtherStore OtherProcess Job → Prop
  | ⟨store, none⟩, ⟨shown, none⟩ => idle store shown
  | ⟨store, some (job, process)⟩, ⟨shown, some (task, other)⟩ =>
      job = task ∧ busy job (store, process) (shown, other)
  | _, _ => False

/-- The process of one session is beside the process of the other. -/
theorem Session.Beside.active {idle : Store → OtherStore → Prop}
    {busy : Job → Store × Process → OtherStore × OtherProcess → Prop} {session : Session Store Process Job}
    {shown : Session OtherStore OtherProcess Job} (beside : session.Beside idle busy shown) {job : Job}
    {process : Process} (active : session.active = some (job, process)) :
    ∃ shadow, shown.active = some (job, shadow) ∧ busy job (session.store, process) (shown.store, shadow) := by
  obtain ⟨store, _⟩ := session
  obtain ⟨other, present⟩ := shown
  cases active
  rcases present with _ | ⟨task, shadow⟩
  · exact beside.elim
  · obtain ⟨rfl, close⟩ := beside
    exact ⟨shadow, rfl, close⟩

/-- The process that is beside another one has it on its other side. -/
theorem Session.Beside.shadowed {idle : Store → OtherStore → Prop}
    {busy : Job → Store × Process → OtherStore × OtherProcess → Prop} {session : Session Store Process Job}
    {shown : Session OtherStore OtherProcess Job} (beside : session.Beside idle busy shown) {job : Job}
    {shadow : OtherProcess} (active : shown.active = some (job, shadow)) :
    ∃ process, session.active = some (job, process) ∧ busy job (session.store, process) (shown.store, shadow) := by
  obtain ⟨store, present⟩ := session
  obtain ⟨other, _⟩ := shown
  cases active
  rcases present with _ | ⟨task, process⟩
  · exact beside.elim
  · obtain ⟨rfl, close⟩ := beside
    exact ⟨process, rfl, close⟩

theorem Session.Beside.mono {idle near : Store → OtherStore → Prop}
    {busy close : Job → Store × Process → OtherStore × OtherProcess → Prop}
    (rests : ∀ store shown, idle store shown → near store shown)
    (runs : ∀ job before shown, busy job before shown → close job before shown)
    {session : Session Store Process Job} {shown : Session OtherStore OtherProcess Job}
    (beside : session.Beside idle busy shown) : session.Beside near close shown := by
  obtain ⟨store, active⟩ := session
  obtain ⟨other, present⟩ := shown
  rcases active with _ | ⟨job, process⟩ <;> rcases present with _ | ⟨task, shadow⟩
  · exact rests _ _ beside
  · exact beside.elim
  · exact beside.elim
  · exact ⟨beside.1, runs _ _ _ beside.2⟩

theorem Session.Beside.refl {idle : Store → Store → Prop} {busy : Job → Store × Process → Store × Process → Prop}
    (rests : ∀ store, idle store store) (runs : ∀ job state, busy job state state)
    (session : Session Store Process Job) : session.Beside idle busy session := by
  obtain ⟨store, active⟩ := session
  rcases active with _ | ⟨job, process⟩
  · exact rests store
  · exact ⟨rfl, runs job _⟩

/-- The obligations give a session of the other program for every session. -/
theorem Program.Follows.followed {program : Program Store Process Job Label Outcome}
    {guard : Session Store Process Job → Move Job Label → Prop}
    {other : Program OtherStore OtherProcess Job Label Outcome}
    {admits : Session OtherStore OtherProcess Job → Move Job Label → Prop}
    {idle : Store → OtherStore → Prop} {busy : Job → Store × Process → OtherStore × OtherProcess → Prop}
    (follows : program.Follows guard other admits idle busy)
    {first last : Session Store Process Job} {moves : List (Move Job Label)}
    (run : Run program.session guard first moves last) {beside : Session OtherStore OtherProcess Job}
    (initial : first.Beside idle busy beside) :
    ∃ next, Reaches other.session admits beside next ∧ last.Beside idle busy next := by
  refine run.followed ?_ initial
  rintro ⟨store, active⟩ move after ⟨shown, present⟩ held admitted taken
  rcases active with _ | ⟨job, process⟩ <;> rcases present with _ | ⟨task, shadow⟩
  · cases move with
    | start job =>
        obtain rfl := Option.some.inj taken
        obtain ⟨admits, started⟩ := follows.start store shown job held admitted
        exact ⟨_, .single (.start job) admits rfl, rfl, started⟩
    | step | finish | kill => cases taken
  · cases held
  · cases held
  · obtain ⟨rfl, held⟩ := held
    cases move with
    | start job => cases taken
    | step label =>
        obtain ⟨next, stepped, rfl⟩ := Option.map_eq_some_iff.mp taken
        obtain ⟨⟨moved, further⟩, kept, same | ⟨admits, followed⟩⟩ :=
          follows.step job (store, process) (shown, shadow) label next held admitted stepped
        · cases same
          exact ⟨_, .refl _, rfl, kept⟩
        · refine ⟨⟨moved, some (job, further)⟩, .single (.step label) admits ?_, rfl, kept⟩
          simp only [Program.session, followed, Option.map_some]
    | finish =>
        simp only [Program.session] at taken
        split at taken
        · rename_i ended
          obtain ⟨outcome, returned⟩ := Option.isSome_iff_exists.mp ended
          obtain rfl := Option.some.inj taken
          obtain ⟨admits, ends, kept⟩ := follows.finish job _ _ outcome held admitted returned
          refine ⟨⟨shown, none⟩, .single .finish admits ?_, kept⟩
          have finished : (other.outcome shadow).isSome = true := by rw [ends]; rfl
          simp only [Program.session, finished, if_true]
        · cases taken
    | kill =>
        obtain rfl := Option.some.inj taken
        obtain ⟨admits, kept⟩ := follows.kill job _ _ held admitted
        exact ⟨⟨shown, none⟩, .single .kill admits rfl, kept⟩

end Sessions

section Readings

variable {Item Reading : Type*} {items : List Item} {place : Nat} {old : Item}

theorem filterMap_cons_toList (read : Item → Option Reading) (item : Item) (items : List Item) :
    (item :: items).filterMap read = (read item).toList ++ items.filterMap read := by
  cases value : read item with
  | none => rw [List.filterMap_cons_none value, Option.toList_none, List.nil_append]
  | some reading => rw [List.filterMap_cons_some value, Option.toList_some, List.singleton_append]

/-- The readings of a list split at a place of it, and an update of the place changes only its own reading. -/
theorem filterMap_set (read : Item → Option Reading) (present : items[place]? = some old) :
    ∃ before after, items.filterMap read = before ++ ((read old).toList ++ after) ∧
      ∀ new, (items.set place new).filterMap read = before ++ ((read new).toList ++ after) := by
  obtain ⟨inside, rfl⟩ := List.getElem?_eq_some_iff.mp present
  have updated : ∀ new, (items.set place new).filterMap read =
      (items.take place).filterMap read ++ ((read new).toList ++ (items.drop (place + 1)).filterMap read) := by
    intro new
    rw [List.set_eq_take_append_cons_drop, if_pos inside, List.filterMap_append, filterMap_cons_toList]
  refine ⟨_, _, ?_, updated⟩
  have same := updated items[place]
  rwa [List.set_getElem_self] at same

/-- An update that keeps the reading of its place keeps the readings of the list. -/
theorem filterMap_set_eq {read : Item → Option Reading} {new : Item} (present : items[place]? = some old)
    (same : read new = read old) : (items.set place new).filterMap read = items.filterMap read := by
  obtain ⟨before, after, whole, updated⟩ := filterMap_set read present
  rw [updated, whole, same]

/-- The only reading of a list is replaced when its place is updated. -/
theorem filterMap_set_single {read : Item → Option Reading} {new : Item} {reading : Reading}
    (present : items[place]? = some old) (found : read old = some reading)
    (single : items.filterMap read = [reading]) : (items.set place new).filterMap read = (read new).toList := by
  obtain ⟨before, after, whole, updated⟩ := filterMap_set read present
  rw [single, found, Option.toList_some, eq_comm, List.append_eq_singleton_iff] at whole
  rcases whole with ⟨rfl, rest⟩ | ⟨_, rest⟩
  · obtain rfl : after = [] := by simpa using rest
    rw [updated, List.nil_append, List.append_nil]
  · cases rest

/-- The reading of an updated place is the only one when the list had no reading. -/
theorem filterMap_set_fresh {read : Item → Option Reading} {new : Item} (present : items[place]? = some old)
    (fresh : items.filterMap read = []) : (items.set place new).filterMap read = (read new).toList := by
  obtain ⟨before, after, whole, updated⟩ := filterMap_set read present
  rw [fresh, eq_comm, List.append_eq_nil_iff, List.append_eq_nil_iff] at whole
  obtain ⟨rfl, -, rfl⟩ := whole
  rw [updated, List.nil_append, List.append_nil]

end Readings

end FastDownloader.Foundation
