/-
# Once in a while for each key

A request under a key is granted unless one under the same key was granted less than `period` ago.
The table keeps the time of the last grant of each key, and a grant drops what is `keep` old; as long
as `period ≤ keep`, what is dropped would not have held back anything, so the table decides as the
whole history of grants does (`fst_ask_eq_false_iff`).
-/

import Ceasefire.Lib.Keyed

namespace Lib
namespace Cooldown

variable {κ : Type*} [DecidableEq κ]

/-- Whether the request is granted, and the table after it. -/
def ask (period keep : ℕ) (k : κ) (now : ℕ) (table : List (κ × ℕ)) : Bool × List (κ × ℕ) :=
  if (findKey Prod.fst k table).any fun last => decide (now - last.2 < period) then (false, table)
  else (true, (replaceKey Prod.fst (k, now) table).filter fun e => decide (now - e.2 < keep))

/-- The table at the time `now`, after the grants in `log`. -/
structure Remembers (period : ℕ) (log : List (κ × ℕ)) (now : ℕ) (table : List (κ × ℕ)) : Prop where
  nodup : (table.map Prod.fst).Nodup
  granted : ∀ e ∈ table, e ∈ log
  recent : ∀ e ∈ log, now - e.2 < period → e ∈ table
  past : ∀ e ∈ log, e.2 ≤ now
  apart : log.Pairwise fun e e' => e.1 = e'.1 → period ≤ e'.2 - e.2

variable {period keep now now' : ℕ} {k : κ} {log table : List (κ × ℕ)}

omit [DecidableEq κ] in
theorem remembers_nil (period now : ℕ) : Remembers period ([] : List (κ × ℕ)) now [] :=
  ⟨List.nodup_nil, fun _ h => h, fun _ h => (nomatch h), fun _ h => (nomatch h), List.Pairwise.nil⟩

variable (keep) in
/-- **The table decides as the grants do.** -/
theorem fst_ask_eq_false_iff (h : Remembers period log now table) (hnow : now ≤ now') :
    (ask period keep k now' table).1 = false ↔ ∃ e ∈ log, e.1 = k ∧ now' - e.2 < period := by
  have hask : (ask period keep k now' table).1 = false ↔
      (findKey Prod.fst k table).any (fun last => decide (now' - last.2 < period)) = true := by
    rw [ask]
    split_ifs with hany
    · exact iff_of_true rfl hany
    · exact iff_of_false (by simp) hany
  rw [hask, Option.any_eq_true]
  constructor
  · rintro ⟨e, he, hrecent⟩
    obtain ⟨hmem, hkey⟩ := (findKey_eq_some h.nodup).1 he
    exact ⟨e, h.granted e hmem, hkey, of_decide_eq_true hrecent⟩
  · rintro ⟨e, he, hkey, hrecent⟩
    have hmem : e ∈ table := h.recent e he (by omega)
    exact ⟨e, (findKey_eq_some h.nodup).2 ⟨hmem, hkey⟩, decide_eq_true hrecent⟩

/-- **What one request leaves.** -/
theorem Remembers.after_ask (h : Remembers period log now table) (hnow : now ≤ now')
    (hkeep : period ≤ keep) :
    Remembers period (if (ask period keep k now' table).1 then log ++ [(k, now')] else log) now'
      (ask period keep k now' table).2 := by
  have hpast : ∀ e ∈ log, e.2 ≤ now' := fun e he => Nat.le_trans (h.past e he) hnow
  have hdecides := fst_ask_eq_false_iff keep (k := k) h hnow
  cases hask : (ask period keep k now' table).1 with
  | false =>
      have htable : (ask period keep k now' table).2 = table := by
        rw [ask] at hask ⊢
        split_ifs at hask ⊢
        rfl
      rw [htable, if_neg Bool.false_ne_true]
      exact ⟨h.nodup, h.granted, fun e he hrecent => h.recent e he (by omega), hpast, h.apart⟩
  | true =>
      have htable : (ask period keep k now' table).2 =
          (replaceKey Prod.fst (k, now') table).filter fun e => decide (now' - e.2 < keep) := by
        rw [ask] at hask ⊢
        split_ifs at hask ⊢
        rfl
      have hnone : ∀ e ∈ log, e.1 = k → period ≤ now' - e.2 := fun e he hkey => by
        by_contra hless
        rw [hdecides.2 ⟨e, he, hkey, Nat.lt_of_not_le hless⟩] at hask
        exact Bool.false_ne_true hask
      rw [htable, if_pos rfl]
      refine ⟨?_, fun e he => ?_, fun e he hrecent => ?_, fun e he => ?_, ?_⟩
      · exact (nodup_replaceKey h.nodup).sublist (List.filter_sublist.map _)
      · have hmem := (mem_replaceKey h.nodup).1 (List.mem_of_mem_filter he)
        exact List.mem_append.2 (hmem.imp (fun h' => h.granted e h'.1) List.mem_singleton.2)
      · refine List.mem_filter.2 ⟨(mem_replaceKey h.nodup).2 ?_, decide_eq_true (by omega)⟩
        rcases List.mem_append.1 he with he | he
        · refine .inl ⟨h.recent e he (by omega), fun hkey => ?_⟩
          have := hnone e he hkey
          omega
        · exact .inr (List.mem_singleton.1 he)
      · rcases List.mem_append.1 he with he | he
        · exact hpast e he
        · exact Nat.le_of_eq (congrArg Prod.snd (List.mem_singleton.1 he))
      · refine List.pairwise_append.2 ⟨h.apart, List.pairwise_singleton _ _, fun e he e' he' => ?_⟩
        rw [List.mem_singleton.1 he']
        exact hnone e he

end Cooldown
end Lib
