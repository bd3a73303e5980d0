/-
This file gives the sliding window: a buffer that forgets stale entries and holds only so many.
-/

import Mathlib.Data.List.DropRight
import Mathlib.Tactic.Common

namespace FastDownloader.Foundation

variable {α : Type*} {stale : α → α → Bool} {earlier : α → α → Prop} {capacity : Nat}

/-- A new entry takes the stale entries off the front, and then the oldest ones while there are too many. -/
def slide (capacity : Nat) (stale : α → α → Bool) (held : List α) (newest : α) : List α :=
  (held.dropWhile (stale newest) ++ [newest]).rtake capacity

/-- Of a whole history these are the last entries that are not stale. -/
def recent (capacity : Nat) (stale : α → α → Bool) (newest : α) (history : List α) : List α :=
  (history.filter fun entry => !stale newest entry).rtake capacity

/-- An older entry gets stale before a younger one, and what is stale stays stale. A new entry is not stale. -/
structure Aging (stale : α → α → Bool) (earlier : α → α → Prop) : Prop where
  older : ∀ newest old young, earlier old young → stale newest young = true → stale newest old = true
  stays : ∀ entry newest next, earlier newest next → stale newest entry = true → stale next entry = true
  fresh : ∀ newest, stale newest newest = false

theorem dropWhile_eq_filter {drops : α → Bool} {entries : List α}
    (sorted : entries.Pairwise fun old young => drops young = true → drops old = true) :
    entries.dropWhile drops = entries.filter fun entry => !drops entry := by
  induction entries with
  | nil => rfl
  | cons head tail ih =>
      obtain ⟨front, rest⟩ := List.pairwise_cons.mp sorted
      cases dropped : drops head with
      | true => rw [List.dropWhile_cons_of_pos dropped, ih rest, List.filter_cons_of_neg (by simp [dropped])]
      | false =>
          have kept : ∀ entry ∈ tail, (!drops entry) = true := by
            intro entry member
            cases later : drops entry with
            | true => exact absurd (front entry member later) (by simp [dropped])
            | false => rfl
          rw [List.dropWhile_cons_of_neg (by simp [dropped]), List.filter_cons_of_pos (by simp [dropped]),
            List.filter_eq_self.mpr kept]

/-- The last entries that are kept are the kept ones among the last entries. -/
theorem filter_rtake {drops : α → Bool} {entries : List α}
    (sorted : entries.Pairwise fun old young => drops young = true → drops old = true) (count : Nat) :
    (entries.rtake count).filter (fun entry => !drops entry) =
      (entries.filter fun entry => !drops entry).rtake count := by
  induction entries using List.reverseRecOn generalizing count with
  | nil => simp
  | append_singleton entries last ih =>
      obtain ⟨rest, -, behind⟩ := List.pairwise_append.mp sorted
      cases count with
      | zero => simp
      | succ count =>
          rw [List.rtake_concat_succ, List.filter_append, List.filter_append, ih rest]
          cases dropped : drops last with
          | false => simp [dropped]
          | true =>
              -- Everything in front of a dropped entry is dropped.
              have none_left : (entries.filter fun entry => !drops entry) = [] := by
                refine List.filter_eq_nil_iff.mpr fun entry member => ?_
                simp [behind entry member last List.mem_cons_self dropped]
              simp [dropped, none_left]

theorem rtake_concat_rtake (entries : List α) (last : α) (count : Nat) :
    (entries.rtake count ++ [last]).rtake count = (entries ++ [last]).rtake count := by
  cases count with
  | zero => simp
  | succ count =>
      rw [List.rtake_concat_succ, List.rtake_concat_succ]
      simp only [List.rtake, List.length_drop, List.drop_drop]
      congr 2
      omega

/-- A window that has slid along a history shows its recent entries. -/
theorem foldl_slide (aging : Aging stale earlier) {history : List α} {newest : α}
    (sorted : (history ++ [newest]).Pairwise earlier) :
    (history ++ [newest]).foldl (slide capacity stale) [] = recent capacity stale newest (history ++ [newest]) := by
  induction history using List.reverseRecOn generalizing newest with
  | nil => simp [slide, recent, aging.fresh]
  | append_singleton history last ih =>
      obtain ⟨before, -, behind⟩ := List.pairwise_append.mp sorted
      have step : earlier last newest := behind last (by simp) newest List.mem_cons_self
      have aged : (history ++ [last]).Pairwise fun old young => stale newest young = true → stale newest old = true :=
        before.imp fun {old young} => aging.older newest old young
      have kept : ((history ++ [last]).filter fun entry => !stale last entry).Pairwise
          fun old young => stale newest young = true → stale newest old = true := aged.filter _
      have last_kept : (((history ++ [last]).filter fun entry => !stale last entry).rtake capacity).Pairwise
          fun old young => stale newest young = true → stale newest old = true := kept.drop
      -- An entry that is fresh now was fresh before.
      have both : ((history ++ [last]).filter fun entry => !stale last entry).filter
            (fun entry => !stale newest entry) =
          (history ++ [last]).filter fun entry => !stale newest entry := by
        rw [List.filter_filter]
        refine List.filter_congr fun entry _ => ?_
        cases old : stale last entry with
        | false => simp
        | true => simp [aging.stays entry last newest step old]
      have newer : (history ++ [last] ++ [newest]).filter (fun entry => !stale newest entry) =
          (history ++ [last]).filter (fun entry => !stale newest entry) ++ [newest] := by
        rw [List.filter_append, List.filter_cons_of_pos (by simp [aging.fresh]), List.filter_nil]
      rw [List.foldl_append, ih before, List.foldl_cons, List.foldl_nil]
      unfold slide recent
      rw [dropWhile_eq_filter last_kept, filter_rtake kept, both, rtake_concat_rtake, newer]

/-- The newest entry itself is always shown. -/
theorem recent_concat (aging : Aging stale earlier) (history : List α) (newest : α) :
    recent (capacity + 1) stale newest (history ++ [newest]) =
      (history.filter fun entry => !stale newest entry).rtake capacity ++ [newest] := by
  rw [recent, List.filter_append, List.filter_cons_of_pos (by simp [aging.fresh]), List.filter_nil,
    List.rtake_concat_succ]

end FastDownloader.Foundation
