import LibMip.Foundation.Exchange
import Mathlib.Data.List.Pairwise

/-!
# Listing a table page by page

A table is listed by asking for the entries from a key on, as many as the peer cares to answer
with, and then for those from the end of the last of them on. `Table` has the entries in order, no
two of which overlap, so what is left after a page is what a request from its end asks for.

`Table.lists` is the rule for a procedure that does so: whatever pages it is answered with, it
reports every entry, in order and once, or what it would report of every entry. Of a peer that has
no such table, `collected` says what a procedure has found that only adds to what it has, and
`ends_of_forward` that it ends when it never asks from the same key again or an earlier one.
-/

namespace Exchange

/-- Entries in order, each from its key up to the end. -/
structure Table (ε : Type*) where
  entries : List ε
  key : ε → Nat
  next : ε → Nat
  advances : ∀ e ∈ entries, key e < next e
  ordered : entries.Pairwise fun e e' => next e ≤ key e'

namespace Table

variable {ε σ ρ θ α τ : Type*} (T : Table ε)

/-- The entries from a key on. -/
def rest (start : Nat) : List ε := T.entries.filter fun e => start ≤ T.key e

variable {T} {start : Nat} {page more : List ε} {last : ε}

theorem mem_of_mem_rest {e : ε} (h : e ∈ T.rest start) : e ∈ T.entries :=
  (List.mem_filter.mp h).1

theorem rest_eq_entries (below : ∀ e ∈ T.entries, start ≤ T.key e) : T.rest start = T.entries :=
  List.filter_eq_self.mpr fun e he => decide_eq_true (below e he)

/-- What is left from a later key on is left of what was left before. -/
theorem rest_rest {later : Nat} (h : start ≤ later) :
    T.rest later = (T.rest start).filter fun e => later ≤ T.key e := by
  rw [rest, rest, List.filter_filter]
  refine List.filter_congr fun e _ => ?_
  by_cases le : later ≤ T.key e
  · have : start ≤ T.key e := by omega
    simp [le, this]
  · simp [le]

/-- After a page, the entries behind it are left. -/
theorem rest_next (split : T.rest start = page ++ last :: more) :
    T.rest (T.next last) = more := by
  have ordered : (page ++ last :: more).Pairwise fun e e' => T.next e ≤ T.key e' :=
    split ▸ T.ordered.filter _
  have last_mem : last ∈ T.rest start := by rw [split]; simp
  have from_start : start ≤ T.key last := of_decide_eq_true (List.mem_filter.mp last_mem).2
  have up := T.advances last (mem_of_mem_rest last_mem)
  obtain ⟨-, tail, cross⟩ := List.pairwise_append.mp ordered
  rw [rest_rest (show start ≤ T.next last by omega), split, List.filter_append,
    List.filter_cons_of_neg]
  · have before : page.filter (fun e => T.next last ≤ T.key e) = [] := by
      refine List.filter_eq_nil_iff.mpr fun e he => ?_
      have mem : e ∈ T.rest start := by rw [split]; simp [he]
      have := T.advances e (mem_of_mem_rest mem)
      have := cross e he last List.mem_cons_self
      simp only [decide_eq_true_eq, Nat.not_le]
      omega
    have behind : more.filter (fun e => T.next last ≤ T.key e) = more :=
      List.filter_eq_self.mpr fun e he => decide_eq_true (List.rel_of_pairwise_cons tail he)
    rw [before, behind, List.nil_append]
  · simp only [decide_eq_true_eq, Nat.not_le]
    exact up

theorem rest_eq_nil (above : ∀ e ∈ T.entries, T.key e < start) : T.rest start = [] := by
  refine List.filter_eq_nil_iff.mpr fun e he => ?_
  have := above e he
  simp only [decide_eq_true_eq, Nat.not_le]
  exact this

/-- A procedure that is answered with the first of the entries left and asks from the end of the
last one on, or stops with what it would report of all that are left, reports the whole table. -/
theorem lists {D : Dialogue σ ρ θ α τ} {state : List ε → σ} {request : Nat → θ}
    {result : List ε → τ} {limit : Nat}
    (each : ∀ w found start, start < limit →
      (∃ page last more, T.rest start = page ++ last :: more ∧ T.next last < limit ∧
        (D.follow w (state found) (request start)).2 =
          .ask (state (found ++ (page ++ [last]))) (request (T.next last))) ∨
      (D.follow w (state found) (request start)).2 = .stop (result (found ++ T.rest start)))
    (w : ρ) (found : List ε) (start : Nat) (within : start < limit) :
    ∃ w', D.Ends w (.ask (state found) (request start)) w' (result (found ++ T.rest start)) := by
  induction left : (T.rest start).length using Nat.strong_induction_on
    generalizing w found start with
  | _ n ih =>
    obtain ⟨page, last, more, split, below, again⟩ | stops := each w found start within
    · have behind := rest_next split
      have fewer : (T.rest (T.next last)).length < n := by
        rw [behind, ← left, split, List.length_append, List.length_cons]
        omega
      obtain ⟨w', ends⟩ := ih _ fewer (D.follow w (state found) (request start)).1
        (found ++ (page ++ [last])) (T.next last) below rfl
      refine ⟨w', Dialogue.ends_ask.mpr ?_⟩
      rw [again, split]
      rw [behind] at ends
      simpa using ends
    · refine ⟨(D.follow w (state found) (request start)).1, Dialogue.ends_ask.mpr ?_⟩
      rw [stops]
      exact Dialogue.ends_stop.mpr ⟨rfl, rfl⟩

end Table

namespace Dialogue

variable {σ ρ θ α τ κ : Type*}

/-- What was found is what was in the answers so far. -/
def Collected (f : α → List κ) (Done : List κ → α → τ → Prop) (log : List α) :
    Turn (List κ) θ τ → Prop
  | .ask s _ => s = log.flatMap f
  | .stop result => ∃ last, log.getLast? = some last ∧ Done (log.flatMap f) last result

/-- A procedure that takes from each answer what is in it has in the end what was in the answers. -/
theorem collected {D : Dialogue (List κ) ρ θ α τ} (f : α → List κ) (Done : List κ → α → τ → Prop)
    (each : ∀ s a, (∃ request, D.resume s a = .ask (s ++ f a) request) ∨
      ∃ result, D.resume s a = .stop result ∧ Done (s ++ f a) a result)
    {w w' : ρ} {log : List α} {request : θ} {result : τ}
    (ends : D.logged.Ends (w, []) (.ask [] request) (w', log) result) :
    ∃ last, log.getLast? = some last ∧ Done (log.flatMap f) last result := by
  have kept : ∀ (w : ρ × List α) s request, Collected f Done w.2 (.ask s request) →
      Collected f Done (D.logged.follow w s request).1.2 (D.logged.follow w s request).2 := by
    rintro ⟨w, log⟩ s request (rfl : s = log.flatMap f)
    show Collected f Done (log ++ [(D.answer w request).2])
      (D.resume (log.flatMap f) (D.answer w request).2)
    have all : log.flatMap f ++ f (D.answer w request).2 =
        (log ++ [(D.answer w request).2]).flatMap f := by simp
    obtain ⟨request', again⟩ | ⟨result, stops, done⟩ := each (log.flatMap f) (D.answer w request).2
    · rw [again]
      exact all
    · rw [stops]
      exact ⟨_, by simp, all ▸ done⟩
  have start : Collected f Done ([] : List α) (.ask [] request : Turn (List κ) θ τ) := rfl
  exact ends.invariant (I := fun w t => Collected f Done w.2 t) kept start

/-- A procedure ends when it asks from later and later keys, up to a limit. -/
theorem ends_of_forward {D : Dialogue σ ρ θ α τ} (request : Nat → θ) {limit : Nat}
    (forward : ∀ w s n, n < limit → (∃ result, (D.follow w s (request n)).2 = .stop result) ∨
      ∃ s' m, n < m ∧ m < limit ∧ (D.follow w s (request n)).2 = .ask s' (request m))
    (w : ρ) (s : σ) {n : Nat} (within : n < limit) :
    ∃ w' result, D.Ends w (.ask s (request n)) w' result := by
  induction left : limit - n using Nat.strong_induction_on generalizing w s n with
  | _ k ih =>
    obtain ⟨result, stops⟩ | ⟨s', m, later, within', again⟩ := forward w s n within
    · refine ⟨(D.follow w s (request n)).1, result, ends_ask.mpr ?_⟩
      rw [stops]
      exact ends_stop.mpr ⟨rfl, rfl⟩
    · obtain ⟨w', result, ends⟩ :=
        ih (limit - m) (by omega) (D.follow w s (request n)).1 s' within' rfl
      exact ⟨w', result, ends_ask.mpr (by rw [again]; exact ends)⟩

end Dialogue

end Exchange
