/-
This file shows what the final checks of a call return and when they remove the data file.
-/

import FastDownloader.Proof.Download.Step

namespace FastDownloader

open Foundation

variable {Text : Type} [SerdeJson Text] {io : FileIo} {hasher : Hasher} {call : DownloadCall} {info : FileInfo}
  {disk final : Disk Text} {last : Download} {events : List DownloadEvent} {result : Except Error Nat} {flag : Bool}

/-- The resource and the result of a path that is about to be joined. -/
def Download.transferred (download : Download) : Option (FileInfo × Except Error Unit) :=
  match download.pc with
  | .multi job multi => multi.outcome.map fun result => (job.info, result)
  | .single job single => single.outcome.map fun result => (job.info, result)
  | _ => none

/-- The file and its state can be removed when the checks want it. -/
def Removable (_state : Disk Text × Download) (event : DownloadEvent) : Prop :=
  event ≠ .removed false ∧ event ≠ .deleted false

/-- The file was hashed and its digest is not the one in force. -/
def HashDiffers (hasher : Hasher) (call : DownloadCall) (info : FileInfo) (disk : Disk Text)
    (events : List DownloadEvent) : Prop :=
  .hashed true ∈ events ∧ ∃ expected contents, call.expectedChecksum info = some expected ∧
    disk.contents = some contents ∧ hasher.computeBlocking contents expected ≠ expected

/-- Success needs the right size and digest, and only a wrong digest destroys the file. -/
structure Gated (hasher : Hasher) (call : DownloadCall) (info : FileInfo) (disk : Disk Text)
    (events : List DownloadEvent) (final : Disk Text) (result : Except Error Nat) : Prop where
  size : ∀ size, result = .ok size → final.data.isSome = true ∧ ∀ expected ∈ info.size, final.length = expected
  digest : ∀ size, result = .ok size → ∀ expected ∈ call.expectedChecksum info,
    ∃ contents, final.contents = some contents ∧ hasher.computeBlocking contents expected = expected
  mismatch : HashDiffers hasher call info disk events →
    (∃ expected actual, result = .error (.checksumMismatch expected actual)) ∧ final.data = none ∧ final.dlstate = none
  kept : ¬ HashDiffers hasher call info disk events → final.data = disk.data

/-- The run hashes nothing. -/
def Unhashed (events : List DownloadEvent) : Prop := ∀ readable, .hashed readable ∉ events

theorem unhashed_nil : Unhashed [] := fun _ => List.not_mem_nil

theorem unhashed_cons {event : DownloadEvent} (other : ∀ readable, event ≠ .hashed readable) (rest : Unhashed events) :
    Unhashed (event :: events) := by
  intro readable member
  rcases List.mem_cons.mp member with same | later
  · exact other readable same.symm
  · exact rest readable later

/-- These are the ways in which a call ends once its transfer is over. -/
inductive Ending (hasher : Hasher) (call : DownloadCall) (info : FileInfo) (disk : Disk Text)
    (events : List DownloadEvent) : Except Error Nat → Disk Text → Prop
  | early (error : Error) (unhashed : Unhashed events) : Ending hasher call info disk events (.error error) disk
  | unchecked (unhashed : Unhashed events) (present : disk.data.isSome = true)
      (fits : ∀ expected ∈ info.size, disk.length = expected) (plain : call.expectedChecksum info = none) :
      Ending hasher call info disk events (.ok disk.length) disk
  | same (expected : Checksum) (contents : List UInt8) (readable : .hashed false ∉ events)
      (checksum : call.expectedChecksum info = some expected) (present : disk.contents = some contents)
      (fits : ∀ expected ∈ info.size, disk.length = expected)
      (equal : hasher.computeBlocking contents expected = expected) :
      Ending hasher call info disk events (.ok disk.length) disk
  | different (expected : Checksum) (contents : List UInt8) (hashed : .hashed true ∈ events)
      (readable : .hashed false ∉ events) (checksum : call.expectedChecksum info = some expected)
      (present : disk.contents = some contents) (unequal : hasher.computeBlocking contents expected ≠ expected) :
      Ending hasher call info disk events (.error (.checksumMismatch expected.display
        (hasher.computeBlocking contents expected).display)) ⟨none, none⟩
  | unreadable (hashed : .hashed false ∈ events) (unhashed : .hashed true ∉ events)
      (present : disk.data.isSome = true) : Ending hasher call info disk events (.error .io) ⟨none, none⟩

omit [SerdeJson Text] in
/-- An event that hashes nothing does not change how the call ends. -/
theorem Ending.cons {event : DownloadEvent} (other : ∀ readable, event ≠ .hashed readable)
    (ending : Ending hasher call info disk events result final) :
    Ending hasher call info disk (event :: events) result final := by
  have absent {readable : Bool} (unhashed : .hashed readable ∉ events) : .hashed readable ∉ event :: events := by
    intro member
    exact unhashed ((List.mem_cons.mp member).resolve_left (Ne.symm (other readable)))
  cases ending with
  | early error unhashed => exact .early error (unhashed_cons other unhashed)
  | unchecked unhashed present fits plain => exact .unchecked (unhashed_cons other unhashed) present fits plain
  | same expected contents readable checksum present fits equal =>
      exact .same expected contents (absent readable) checksum present fits equal
  | different expected contents hashed readable checksum present unequal =>
      exact .different expected contents (List.mem_cons_of_mem _ hashed) (absent readable) checksum present unequal
  | unreadable hashed unhashed present => exact .unreadable (List.mem_cons_of_mem _ hashed) (absent unhashed) present

namespace Download

/-- A call that waits for one event passes its cancellations first. -/
theorem wait_induction {pc : DownloadPc} {motive : List DownloadEvent → Prop}
    (waits : ∀ flag, Download.step io hasher call (disk, ⟨pc, flag⟩) .cancel = some (disk, ⟨pc, true⟩))
    (unreturned : ∀ flag, (⟨pc, flag⟩ : Download).outcome = none)
    (skip : ∀ events, motive events → motive (.cancel :: events))
    (move : ∀ flag event next events, event ≠ .cancel → Removable (disk, ⟨pc, flag⟩) event →
      Download.step io hasher call (disk, ⟨pc, flag⟩) event = some next →
      Run (Download.step io hasher call) Removable next events (final, last) → motive (event :: events))
    (run : Run (Download.step io hasher call) Removable (disk, ⟨pc, flag⟩) events (final, last))
    (returned : last.outcome = some result) : motive events := by
  generalize same : (disk, (⟨pc, flag⟩ : Download)) = first at run
  generalize ended : (final, last) = done at run
  induction run generalizing flag with
  | nil state =>
      obtain ⟨rfl, rfl⟩ := Prod.mk.inj (ended.trans same.symm)
      rw [unreturned] at returned
      cases returned
  | @cons first middle done event events admitted taken rest ih =>
      subst same
      by_cases cancel : event = .cancel
      · subst cancel
        have next := (waits flag).symm.trans taken
        exact skip events (ih (Option.some.inj next) ended)
      · subst ended
        exact move flag event middle events cancel admitted taken rest

/-- Nothing but cancellations follows a return. -/
theorem returned_rest {given : Except Error Nat}
    (run : Run (Download.step io hasher call) Removable (disk, ⟨.returned given, flag⟩) events (final, last))
    (returned : last.outcome = some result) : result = given ∧ final = disk ∧ Unhashed events := by
  generalize same : (disk, (⟨.returned given, flag⟩ : Download)) = first at run
  generalize ended : (final, last) = done at run
  induction run generalizing flag with
  | nil state =>
      obtain ⟨rfl, rfl⟩ := Prod.mk.inj (ended.trans same.symm)
      exact ⟨(Option.some.inj returned).symm, rfl, unhashed_nil⟩
  | @cons first middle done event events admitted taken rest ih =>
      subst same
      cases event with
      | cancel =>
          obtain ⟨outcome, kept, unhashed⟩ := ih (Option.some.inj taken) ended
          exact ⟨outcome, kept, unhashed_cons nofun unhashed⟩
      | _ => cases taken

theorem deleting_rest {error : Error}
    (run : Run (Download.step io hasher call) Removable (disk, ⟨.deleting error, flag⟩) events (final, last))
    (returned : last.outcome = some result) :
    result = .error error ∧ final = disk.deleteState ∧ Unhashed events := by
  apply wait_induction (fun _ => rfl) (fun _ => rfl) ?skip ?move run returned
  case skip =>
    rintro events ⟨outcome, removed, unhashed⟩
    exact ⟨outcome, removed, unhashed_cons nofun unhashed⟩
  case move =>
    intro flag event next events uncancelled admitted taken rest
    cases event with
    | cancel => exact absurd rfl uncancelled
    | deleted ok =>
        cases ok with
        | false => exact absurd rfl admitted.2
        | true =>
            obtain rfl := Option.some.inj taken
            obtain ⟨outcome, removed, unhashed⟩ := returned_rest rest returned
            exact ⟨outcome, removed, unhashed_cons nofun unhashed⟩
    | _ => cases taken

theorem removing_rest {error : Error}
    (run : Run (Download.step io hasher call) Removable (disk, ⟨.removing error, flag⟩) events (final, last))
    (returned : last.outcome = some result) :
    result = .error error ∧ final = ⟨none, none⟩ ∧ Unhashed events := by
  apply wait_induction (fun _ => rfl) (fun _ => rfl) ?skip ?move run returned
  case skip =>
    rintro events ⟨outcome, removed, unhashed⟩
    exact ⟨outcome, removed, unhashed_cons nofun unhashed⟩
  case move =>
    intro flag event next events uncancelled admitted taken rest
    cases event with
    | cancel => exact absurd rfl uncancelled
    | removed ok =>
        cases ok with
        | false => exact absurd rfl admitted.1
        | true =>
            obtain rfl := Option.some.inj taken
            obtain ⟨outcome, removed, unhashed⟩ := deleting_rest rest returned
            exact ⟨outcome, removed, unhashed_cons nofun unhashed⟩
    | _ => cases taken

theorem verifying_rest {expected : Checksum} {contents : List UInt8} (present : disk.contents = some contents)
    (fits : ∀ expected ∈ info.size, disk.length = expected) (checksum : call.expectedChecksum info = some expected)
    (run : Run (Download.step io hasher call) Removable (disk, ⟨.verifying disk.length expected, flag⟩) events (final, last))
    (returned : last.outcome = some result) : Ending hasher call info disk events result final := by
  apply wait_induction (fun _ => rfl) (fun _ => rfl) ?skip ?move run returned
  case skip => exact fun events ending => ending.cons nofun
  case move =>
    intro flag event next events uncancelled admitted taken rest
    have absent {readable : Bool} (unhashed : Unhashed events) : .hashed readable ∉ .hashed (!readable) :: events := by
      intro member
      rcases List.mem_cons.mp member with same | later
      · cases readable <;> cases same
      · exact unhashed readable later
    cases event with
    | cancel => exact absurd rfl uncancelled
    | hashed readable =>
        cases readable with
        | true =>
            simp only [Download.step, present, Hasher.verifyFile, if_true] at taken
            by_cases equal : hasher.computeBlocking contents expected = expected
            · rw [if_pos equal] at taken
              obtain rfl := Option.some.inj taken
              obtain ⟨rfl, rfl, unhashed⟩ := returned_rest rest returned
              exact .same expected contents (absent unhashed) checksum present fits equal
            · rw [if_neg equal] at taken
              obtain rfl := Option.some.inj taken
              obtain ⟨rfl, rfl, unhashed⟩ := removing_rest rest returned
              exact .different expected contents List.mem_cons_self (absent unhashed) checksum present equal
        | false =>
            obtain rfl := Option.some.inj taken
            obtain ⟨rfl, rfl, unhashed⟩ := removing_rest rest returned
            have file : disk.data.isSome = true := by
              rw [Disk.contents, Option.map_eq_some_iff] at present
              obtain ⟨cells, found, -⟩ := present
              rw [found]
              rfl
            exact .unreadable List.mem_cons_self (absent unhashed) file
    | _ => cases taken

theorem measuring_rest
    (run : Run (Download.step io hasher call) Removable (disk, ⟨.measuring info, flag⟩) events (final, last))
    (returned : last.outcome = some result) : Ending hasher call info disk events result final := by
  apply wait_induction (fun _ => rfl) (fun _ => rfl) ?skip ?move run returned
  case skip => exact fun events ending => ending.cons nofun
  case move =>
    intro flag event next events uncancelled admitted taken rest
    cases event with
    | cancel => exact absurd rfl uncancelled
    | measured readable =>
        refine Ending.cons (fun _ => nofun) ?_
        simp only [Download.step] at taken
        split_ifs at taken with measurable
        · obtain ⟨-, present⟩ := Bool.and_eq_true_iff.mp measurable
          obtain rfl := Option.some.inj taken
          unfold Download.onMeasured at rest
          split at rest
          · obtain ⟨rfl, rfl, unhashed⟩ := returned_rest rest returned
            exact .early _ unhashed
          · rename_i fitting
            have fits : ∀ expected ∈ info.size, disk.length = expected := by
              intro expected known
              have kept := Option.filter_eq_none_iff.mp fitting expected known
              simp only [decide_eq_true_eq, not_not] at kept
              exact kept.symm
            split at rest
            · rename_i expected checksum
              obtain ⟨cells, found⟩ := Option.isSome_iff_exists.mp present
              have contents : disk.contents = some (cells.map Cell.byte) := by rw [Disk.contents, found, Option.map_some]
              exact verifying_rest contents fits checksum rest returned
            · rename_i plain
              obtain ⟨rfl, rfl, unhashed⟩ := returned_rest rest returned
              exact .unchecked unhashed present fits plain
        · obtain rfl := Option.some.inj taken
          obtain ⟨rfl, rfl, unhashed⟩ := returned_rest rest returned
          exact .early _ unhashed
    | _ => cases taken

/-- A call whose transfer has been joined ends in one of these ways. -/
theorem joined_rest {download : Download} {transfer : Except Error Unit}
    (transferred : download.transferred = some (info, transfer))
    (run : Run (Download.step io hasher call) Removable (disk, download) (.join :: events) (final, last))
    (returned : last.outcome = some result) : Ending hasher call info disk events result final := by
  obtain ⟨pc, flag⟩ := download
  cases run with
  | @cons first middle done event events admitted taken rest =>
      have joined : middle = (disk, Download.onJoin ⟨pc, flag⟩ info transfer) := by
        cases pc with
        | multi job multi =>
            obtain ⟨outcome, same, pair⟩ := Option.map_eq_some_iff.mp transferred
            obtain ⟨rfl, rfl⟩ := Prod.mk.inj pair
            simp only [Download.step, same, Option.map_some] at taken
            exact (Option.some.inj taken).symm
        | single job single =>
            obtain ⟨outcome, same, pair⟩ := Option.map_eq_some_iff.mp transferred
            obtain ⟨rfl, rfl⟩ := Prod.mk.inj pair
            simp only [Download.step, same, Option.map_some] at taken
            exact (Option.some.inj taken).symm
        | _ => cases transferred
      subst joined
      cases transfer with
      | ok => exact measuring_rest rest returned
      | error error =>
          obtain ⟨rfl, rfl, unhashed⟩ := returned_rest rest returned
          exact .early error unhashed

/-- The checks gate success, and only a wrong digest destroys the file, just when the file can be read for hashing. -/
theorem gated_iff {download : Download} {transfer : Except Error Unit}
    (transferred : download.transferred = some (info, transfer))
    (run : Run (Download.step io hasher call) Removable (disk, download) (.join :: events) (final, last))
    (returned : last.outcome = some result) :
    Gated hasher call info disk events final result ↔ .hashed false ∉ events := by
  have ending := joined_rest transferred run returned
  have uncompared (unhashed : .hashed true ∉ events) : ¬ HashDiffers hasher call info disk events :=
    fun differs => unhashed differs.1
  cases ending with
  | early error unhashed =>
      refine iff_of_true ?_ (unhashed false)
      exact ⟨nofun, nofun, fun differs => absurd differs (uncompared (unhashed true)), fun _ => rfl⟩
  | unchecked unhashed present fits plain =>
      refine iff_of_true ⟨fun _ _ => ⟨present, fits⟩, ?_, fun differs => absurd differs (uncompared (unhashed true)),
        fun _ => rfl⟩ (unhashed false)
      intro _ _ expected given
      rw [plain] at given
      cases given
  | same expected contents readable checksum present fits equal =>
      have file : disk.data.isSome = true := by
        obtain ⟨cells, found, -⟩ := Option.map_eq_some_iff.mp present
        rw [found]
        rfl
      refine iff_of_true ⟨fun _ _ => ⟨file, fits⟩, ?_, ?_, fun _ => rfl⟩ readable
      · intro _ _ other given
        obtain rfl := Option.some.inj (checksum.symm.trans given)
        exact ⟨contents, present, equal⟩
      · rintro ⟨-, other, bytes, given, found, unequal⟩
        obtain rfl := Option.some.inj (checksum.symm.trans given)
        obtain rfl := Option.some.inj (present.symm.trans found)
        exact absurd equal unequal
  | different expected contents hashed readable checksum present unequal =>
      refine iff_of_true ⟨nofun, nofun, fun _ => ⟨⟨_, _, rfl⟩, rfl, rfl⟩, fun same => ?_⟩ readable
      exact absurd ⟨hashed, expected, contents, checksum, present, unequal⟩ same
  | unreadable hashed unhashed present =>
      refine iff_of_false ?_ (not_not_intro hashed)
      intro gated
      rw [← gated.kept (uncompared unhashed)] at present
      cases present

/-- This path has returned with a resource of one byte. -/
def transferredByte : Download :=
  ⟨.single ⟨⟨"u", some 1, by decide, false, none, none, none⟩, 1, {}⟩ { Single.start false with pc := .returned (.ok ()) },
    false⟩

/-- The caller of this call expects the digest that the file has. -/
def digestCall : DownloadCall := ⟨{ url := "u", expectedChecksum := some (.md5 (.replicate 16 0)) }, {}⟩

def byteDisk : Disk DownloadState := ⟨some [⟨7, 1, true⟩], none⟩

theorem gated_iff_digest :
    Gated anyHasher digestCall ⟨"u", some 1, by decide, false, none, none, none⟩ byteDisk
      [.measured true, .hashed true] byteDisk (.ok 1) ↔ .hashed false ∉ [DownloadEvent.measured true, .hashed true] := by
  have run : Run (Download.step .background anyHasher digestCall) Removable (byteDisk, transferredByte)
      [.join, .measured true, .hashed true] (byteDisk, ⟨.returned (.ok 1), false⟩) :=
    .cons ⟨nofun, nofun⟩ rfl (.cons ⟨nofun, nofun⟩ rfl (.cons ⟨nofun, nofun⟩ rfl (.nil _)))
  exact gated_iff rfl run rfl

/-- A file with the right digest is removed when it cannot be read for hashing. -/
theorem ungated_unreadable :
    ∃ last : Download, Run (Download.step .background anyHasher digestCall) Removable (byteDisk, transferredByte)
        [.join, .measured true, .hashed false, .removed true, .deleted true] (⟨none, none⟩, last) ∧
      last.outcome = some (.error .io) ∧
      anyHasher.verifyFile byteDisk.contents (.md5 (.replicate 16 0)) = .ok () ∧
      ¬ Gated anyHasher digestCall ⟨"u", some 1, by decide, false, none, none, none⟩ byteDisk
        [.measured true, .hashed false, .removed true, .deleted true] ⟨none, none⟩ (.error .io) := by
  refine ⟨⟨.returned (.error .io), false⟩, ?_, rfl, rfl, fun gated => ?_⟩
  · exact .cons ⟨nofun, nofun⟩ rfl (.cons ⟨nofun, nofun⟩ rfl (.cons ⟨nofun, nofun⟩ rfl
      (.cons ⟨nofun, nofun⟩ rfl (.cons ⟨nofun, nofun⟩ rfl (.nil _)))))
  · have kept := gated.kept fun differs => by simpa using differs.1
    cases kept

end Download

end FastDownloader
