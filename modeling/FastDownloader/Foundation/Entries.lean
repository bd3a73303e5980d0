/-
This file gives maps that are built by writes, and what the last write of a key says about them.
-/

import Mathlib.Data.List.Induction
import Mathlib.Logic.Function.Basic

namespace FastDownloader.Foundation

variable {Key Entry : Type*} [DecidableEq Key]

/-- The writes go to the map in their order. A write without an entry removes the entry of its key. -/
def writeAll (entries : Key → Option Entry) (writes : List (Key × Option Entry)) : Key → Option Entry :=
  writes.foldl (fun entries write => Function.update entries write.1 write.2) entries

def lastWrite (writes : List (Key × Option Entry)) (key : Key) : Option (Key × Option Entry) :=
  (writes.filter fun write => write.1 = key).getLast?

theorem writeAll_concat (entries : Key → Option Entry) (writes : List (Key × Option Entry))
    (write : Key × Option Entry) :
    writeAll entries (writes ++ [write]) = Function.update (writeAll entries writes) write.1 write.2 := by
  rw [writeAll, List.foldl_append]
  rfl

theorem lastWrite_concat (writes : List (Key × Option Entry)) (write : Key × Option Entry) (key : Key) :
    lastWrite (writes ++ [write]) key = if write.1 = key then some write else lastWrite writes key := by
  unfold lastWrite
  rw [List.filter_append]
  split_ifs with same
  · rw [List.filter_cons_of_pos (by exact decide_eq_true same), List.filter_nil, List.getLast?_concat]
  · rw [List.filter_cons_of_neg (by rw [decide_eq_true_eq]; exact same), List.filter_nil, List.append_nil]

/-- The last write of a key decides its entry. -/
theorem writeAll_eq_lastWrite (entries : Key → Option Entry) (writes : List (Key × Option Entry)) (key : Key) :
    writeAll entries writes key = (lastWrite writes key).elim (entries key) Prod.snd := by
  induction writes using List.reverseRecOn with
  | nil => rfl
  | append_singleton writes write ih =>
      rw [writeAll_concat, lastWrite_concat]
      split_ifs with same
      · rw [← same, Function.update_self]
        rfl
      · rw [Function.update_of_ne (Ne.symm same), ih]

/-- The writes that are the last of no key may be left out. -/
theorem writeAll_filter (entries : Key → Option Entry) {writes : List (Key × Option Entry)}
    {kept : Key × Option Entry → Bool} (last : ∀ key, ∀ write ∈ lastWrite writes key, kept write = true) :
    writeAll entries (writes.filter kept) = writeAll entries writes := by
  have same : ∀ key, lastWrite (writes.filter kept) key = lastWrite writes key := by
    intro key
    have mine := last key
    clear last
    induction writes using List.reverseRecOn with
    | nil => rfl
    | append_singleton writes write ih =>
        rw [lastWrite_concat] at mine ⊢
        rw [List.filter_append]
        split_ifs at mine ⊢ with hit
        · rw [List.filter_cons_of_pos (mine write rfl), List.filter_nil, lastWrite_concat, if_pos hit]
        · rw [← ih mine]
          cases keeps : kept write with
          | true => rw [List.filter_cons_of_pos keeps, List.filter_nil, lastWrite_concat, if_neg hit]
          | false =>
              rw [List.filter_cons_of_neg (by rw [keeps]; exact Bool.false_ne_true), List.filter_nil, List.append_nil]
  funext key
  rw [writeAll_eq_lastWrite, writeAll_eq_lastWrite, same key]

end FastDownloader.Foundation
