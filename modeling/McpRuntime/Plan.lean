import Mathlib.Logic.Relation
import Mathlib.Data.Int.ConditionallyCompleteOrder
import Mathlib.Order.Filter.AtTopBot.Group
import Mathlib.Tactic.Linarith

/-!
# Questions that ask further questions, on a budget

A question is answered by a plan: a formula of further questions, which are
asked from left to right and only as far as the formula needs them. Every
question costs one unit of a budget, and finds nothing when the budget is
exhausted; questions may be nested only so deep.

Where `R` is the relation of true answers (`Plan.Holds R` of a plan is what the
plan says when its questions are answered by `R`), the nesting that a question
needs, on any budget, is the nesting of the questions that `R` makes it ask:

* `eval_decides`: an answer within the budget is the true one.
* `within_iff`: a question is answered at a depth, on every budget, exactly when
  its questions stay within the depth.
* `within_iff_of_level`: they do when the questions of a level have smaller
  levels, unless a question is reached that asks its like.
-/

namespace McpRuntime

open Filter

/-- The questions that answer a question. -/
inductive Plan (α : Type)
  | answer (b : Bool)
  | ask (a : α)
  | and (p q : Plan α)
  | or (p q : Plan α)

namespace Plan

variable {α : Type}

/-- A computation with a budget, which gives no value where it is nested too
    deeply. -/
abbrev Budgeted := ℤ → Option (Bool × ℤ)

/-- A plan with an answer for its questions. -/
def run (ask : α → Budgeted) : Plan α → Budgeted
  | answer b => fun remaining => some (b, remaining)
  | .ask a => ask a
  | and p q => fun remaining =>
    match p.run ask remaining with
    | some (true, rest) => q.run ask rest
    | r => r
  | or p q => fun remaining =>
    match p.run ask remaining with
    | some (false, rest) => q.run ask rest
    | r => r

/-- The answer to a question whose questions are nested at most `depth` times. -/
def eval (plan : α → Plan α) : ℕ → α → Budgeted
  | 0, _ => fun _ => none
  | depth + 1, a => fun remaining =>
    if remaining - 1 < 0 then some (false, remaining - 1)
    else (plan a).run (eval plan depth) (remaining - 1)

/-- What a plan says when its questions have their true answers. -/
def Holds (R : α → Prop) : Plan α → Prop
  | answer b => b = true
  | ask a => R a
  | and p q => p.Holds R ∧ q.Holds R
  | or p q => p.Holds R ∨ q.Holds R

/-- The questions that a plan asks when they have their true answers. -/
def Asks (R : α → Prop) : Plan α → α → Prop
  | answer _, _ => False
  | ask a, b => a = b
  | and p q, b => p.Asks R b ∨ p.Holds R ∧ q.Asks R b
  | or p q, b => p.Asks R b ∨ ¬ p.Holds R ∧ q.Asks R b

/-- All of the questions of a list. -/
def all {β : Type} (f : β → Plan α) : List β → Plan α
  | [] => answer true
  | b :: l => and (f b) (all f l)

/-- Any of the questions of a list. -/
def any {β : Type} (f : β → Plan α) : List β → Plan α
  | [] => answer false
  | b :: l => or (f b) (any f l)

section

variable {β : Type} {f : β → Plan α} {R : α → Prop} {l : List β} {a : α}

theorem exists_of_asks_all (h : (all f l).Asks R a) : ∃ b ∈ l, (f b).Asks R a := by
  induction l with
  | nil => exact h.elim
  | cons b l ih =>
    rcases h with h | ⟨-, h⟩
    · exact ⟨b, List.mem_cons_self, h⟩
    · obtain ⟨b', hb', h⟩ := ih h
      exact ⟨b', List.mem_cons_of_mem _ hb', h⟩

theorem exists_of_asks_any (h : (any f l).Asks R a) : ∃ b ∈ l, (f b).Asks R a := by
  induction l with
  | nil => exact h.elim
  | cons b l ih =>
    rcases h with h | ⟨-, h⟩
    · exact ⟨b, List.mem_cons_self, h⟩
    · obtain ⟨b', hb', h⟩ := ih h
      exact ⟨b', List.mem_cons_of_mem _ hb', h⟩

end

section

variable {R R' : α → Prop} {p : Plan α}

theorem Holds.mono (h : ∀ a, R a → R' a) (hp : p.Holds R) : p.Holds R' := by
  induction p with
  | answer b => exact hp
  | ask a => exact h a hp
  | and p q ihp ihq => exact hp.imp ihp ihq
  | or p q ihp ihq => exact hp.imp ihp ihq

/-- A plan that holds does so by the answers to what it asks. -/
theorem Holds.asked (hp : p.Holds R) : p.Holds fun a => R a ∧ p.Asks R a := by
  induction p with
  | answer b => exact hp
  | ask a => exact ⟨hp, rfl⟩
  | and p q ihp ihq =>
    refine ⟨(ihp hp.1).mono fun a ha => ⟨ha.1, .inl ha.2⟩,
      (ihq hp.2).mono fun a ha => ⟨ha.1, .inr ⟨hp.1, ha.2⟩⟩⟩
  | or p q ihp ihq =>
    -- the second one is asked only when the first one does not hold
    by_cases hfirst : p.Holds R
    · exact .inl ((ihp hfirst).mono fun a ha => ⟨ha.1, .inl ha.2⟩)
    · exact .inr ((ihq (hp.resolve_left hfirst)).mono fun a ha => ⟨ha.1, .inr ⟨hfirst, ha.2⟩⟩)

end

/-- A computation has the verdict of a proposition, unless its budget is
    exhausted or it gives none. -/
def Decides (x : Budgeted) (P : Prop) : Prop :=
  ∀ remaining v rest, x remaining = some (v, rest) →
    rest ≤ remaining ∧ (v = true → P) ∧ (0 ≤ rest → P → v = true)

section

variable {ask : α → Budgeted} {R : α → Prop} {p q : Plan α}

theorem run_and (remaining : ℤ) : (and p q).run ask remaining =
    match p.run ask remaining with
    | some (true, rest) => q.run ask rest
    | r => r :=
  rfl

theorem run_or (remaining : ℤ) : (or p q).run ask remaining =
    match p.run ask remaining with
    | some (false, rest) => q.run ask rest
    | r => r :=
  rfl

theorem run_decides (h : ∀ a, Decides (ask a) (R a)) : Decides (p.run ask) (p.Holds R) := by
  induction p with
  | answer b =>
    intro remaining v rest hx
    cases hx
    exact ⟨le_rfl, id, fun _ => id⟩
  | ask a => exact h a
  | and p q ihp ihq =>
    intro remaining v rest hx
    rw [run_and] at hx
    split at hx
    · next rest₁ hp =>
      obtain ⟨hle, hsound, -⟩ := ihp _ _ _ hp
      obtain ⟨hle', hsound', hcomplete⟩ := ihq _ _ _ hx
      exact ⟨hle'.trans hle, fun hv => ⟨hsound rfl, hsound' hv⟩, fun h0 hpq => hcomplete h0 hpq.2⟩
    · next hfail =>
      obtain ⟨hle, -, hcomplete⟩ := ihp _ _ _ hx
      cases v with
      | true => exact absurd hx (hfail rest)
      | false => exact ⟨hle, nofun, fun h0 hpq => hcomplete h0 hpq.1⟩
  | or p q ihp ihq =>
    intro remaining v rest hx
    rw [run_or] at hx
    split at hx
    · next rest₁ hp =>
      obtain ⟨hle, -, hcomplete⟩ := ihp _ _ _ hp
      obtain ⟨hle', hsound, hcomplete'⟩ := ihq _ _ _ hx
      refine ⟨hle'.trans hle, fun hv => .inr (hsound hv), fun h0 hpq => hcomplete' h0 ?_⟩
      exact hpq.resolve_left fun hP => Bool.false_ne_true (hcomplete (h0.trans hle') hP)
    · next hsucceed =>
      obtain ⟨hle, hsound, -⟩ := ihp _ _ _ hx
      cases v with
      | false => exact absurd hx (hsucceed rest)
      | true => exact ⟨hle, fun _ => .inl (hsound rfl), fun _ _ => rfl⟩

theorem run_mono {ask' : α → Budgeted}
    (h : ∀ a remaining r, ask a remaining = some r → ask' a remaining = some r) {remaining : ℤ}
    {r : Bool × ℤ} (hp : p.run ask remaining = some r) : p.run ask' remaining = some r := by
  induction p generalizing remaining r with
  | answer b => exact hp
  | ask a => exact h a remaining r hp
  | and p q ihp ihq =>
    rw [run_and] at hp ⊢
    split at hp
    · next rest hrun =>
      rw [ihp hrun]
      exact ihq hp
    · next hfail =>
      rw [ihp hp]
      rw [hp] at hfail
      split
      · next rest heq => exact absurd heq (hfail rest)
      · rfl
  | or p q ihp ihq =>
    rw [run_or] at hp ⊢
    split at hp
    · next rest hrun =>
      rw [ihp hrun]
      exact ihq hp
    · next hsucceed =>
      rw [ihp hp]
      rw [hp] at hsucceed
      split
      · next rest heq => exact absurd heq (hsucceed rest)
      · rfl

/-- A plan that asks nothing spends nothing. -/
theorem run_of_silent (hp : ∀ a, ¬ p.Asks R a) (remaining : ℤ) :
    ∃ v, p.run ask remaining = some (v, remaining) ∧ (v = true ↔ p.Holds R) := by
  induction p generalizing remaining with
  | answer b => exact ⟨b, rfl, Iff.rfl⟩
  | ask a => exact absurd rfl (hp a)
  | and p q ihp ihq =>
    obtain ⟨v, hv, hiff⟩ := ihp (fun a ha => hp a (.inl ha)) remaining
    cases v with
    | false => exact ⟨false, by rw [run_and, hv], ⟨nofun, fun h => hiff.2 h.1⟩⟩
    | true =>
      have hholds := hiff.1 rfl
      obtain ⟨w, hw, hiff'⟩ := ihq (fun a ha => hp a (.inr ⟨hholds, ha⟩)) remaining
      exact ⟨w, by rw [run_and, hv]; exact hw, hiff'.trans ⟨fun h => ⟨hholds, h⟩, And.right⟩⟩
  | or p q ihp ihq =>
    obtain ⟨v, hv, hiff⟩ := ihp (fun a ha => hp a (.inl ha)) remaining
    cases v with
    | true => exact ⟨true, by rw [run_or, hv], ⟨fun _ => .inl (hiff.1 rfl), fun _ => rfl⟩⟩
    | false =>
      have hholds : ¬ p.Holds R := fun h => Bool.false_ne_true (hiff.2 h)
      obtain ⟨w, hw, hiff'⟩ := ihq (fun a ha => hp a (.inr ⟨hholds, ha⟩)) remaining
      exact ⟨w, by rw [run_or, hv]; exact hw, hiff'.trans ⟨.inr, fun h => h.resolve_left hholds⟩⟩

/-- A plan whose questions have answers that cost nothing. -/
theorem run_of_free {verdict : α → Bool} (h : ∀ a remaining, ask a remaining = some (verdict a, remaining))
    (remaining : ℤ) :
    ∃ v, p.run ask remaining = some (v, remaining) ∧
      (v = true ↔ p.Holds fun a => verdict a = true) := by
  induction p generalizing remaining with
  | answer b => exact ⟨b, rfl, Iff.rfl⟩
  | ask a => exact ⟨verdict a, h a remaining, Iff.rfl⟩
  | and p q ihp ihq =>
    obtain ⟨v, hv, hiff⟩ := ihp remaining
    obtain ⟨w, hw, hiff'⟩ := ihq remaining
    refine ⟨v && w, ?_, by rw [Bool.and_eq_true, hiff, hiff']; rfl⟩
    rw [run_and, hv]
    cases v with
    | false => rfl
    | true => exact hw
  | or p q ihp ihq =>
    obtain ⟨v, hv, hiff⟩ := ihp remaining
    obtain ⟨w, hw, hiff'⟩ := ihq remaining
    refine ⟨v || w, ?_, by rw [Bool.or_eq_true, hiff, hiff']; rfl⟩
    rw [run_or, hv]
    cases v with
    | true => rfl
    | false => exact hw

/-- An exhausted budget needs no nesting. -/
theorem run_of_exhausted (h : ∀ a, ∀ remaining < 0, ask a remaining ≠ none)
    (hdecides : ∀ a, Decides (ask a) (R a)) {remaining : ℤ} (hremaining : remaining < 0) :
    p.run ask remaining ≠ none := by
  induction p generalizing remaining with
  | answer b => nofun
  | ask a => exact h a remaining hremaining
  | and p q ihp ihq =>
    rw [run_and]
    split
    · next rest hp => exact ihq ((run_decides hdecides _ _ _ hp).1.trans_lt hremaining)
    · exact ihp hremaining
  | or p q ihp ihq =>
    rw [run_or]
    split
    · next rest hp => exact ihq ((run_decides hdecides _ _ _ hp).1.trans_lt hremaining)
    · exact ihp hremaining

/-- A plan is answered when the questions that it asks are. -/
theorem run_of_answered (h : ∀ a, ∀ remaining < 0, ask a remaining ≠ none)
    (hdecides : ∀ a, Decides (ask a) (R a))
    (hp : ∀ a, p.Asks R a → ∀ remaining, ask a remaining ≠ none) (remaining : ℤ) :
    p.run ask remaining ≠ none := by
  induction p generalizing remaining with
  | answer b => nofun
  | ask a => exact hp a rfl remaining
  | and p q ihp ihq =>
    rw [run_and]
    split
    · next rest hrun =>
      have hholds := (run_decides hdecides _ _ _ hrun).2.1 rfl
      exact ihq (fun a ha => hp a (.inr ⟨hholds, ha⟩)) rest
    · exact ihp (fun a ha => hp a (.inl ha)) remaining
  | or p q ihp ihq =>
    rw [run_or]
    split
    · next rest hrun =>
      -- the second plan is run because the first one fails, or on no budget
      rcases lt_or_ge rest 0 with hneg | hrest
      · exact run_of_exhausted h hdecides hneg
      · have hholds : ¬ p.Holds R := fun hP =>
          Bool.false_ne_true ((run_decides hdecides _ _ _ hrun).2.2 hrest hP)
        exact ihq (fun a ha => hp a (.inr ⟨hholds, ha⟩)) rest
    · exact ihp (fun a ha => hp a (.inl ha)) remaining

end

/-! ## What a computation comes to on a large budget -/

/-- A computation has one outcome from some budget on, and spends a constant. -/
def Settles (x : Budgeted) (o : Option (Bool × ℤ)) : Prop :=
  ∀ᶠ remaining in atTop, x remaining = o.map fun y => (y.1, remaining - y.2)

theorem Settles.after {x : Budgeted} {o : Option (Bool × ℤ)} (h : Settles x o) (cost : ℤ) :
    Settles (fun remaining => x (remaining - cost)) (o.map fun y => (y.1, cost + y.2)) := by
  have htendsto : Tendsto (fun remaining : ℤ => remaining - cost) atTop atTop :=
    tendsto_atTop_add_const_right atTop (-cost) tendsto_id
  refine (htendsto.eventually h).mono fun remaining hx => hx.trans ?_
  cases o with
  | none => rfl
  | some y => simp only [Option.map_some, sub_sub]

/-- The outcome on a large budget is the true answer. -/
theorem Settles.decided {x : Budgeted} {P : Prop} {v : Bool} {cost : ℤ}
    (h : Settles x (some (v, cost))) (hx : Decides x P) : v = true ↔ P := by
  obtain ⟨remaining, hsettled, hle⟩ := (h.and (eventually_ge_atTop cost)).exists
  obtain ⟨-, hsound, hcomplete⟩ := hx _ _ _ hsettled
  exact ⟨hsound, hcomplete (by dsimp only; linarith)⟩

section

variable {ask : α → Budgeted} {R : α → Prop} {p q : Plan α}

/-- A plan settles when its questions do, and if it has an answer then so do the
    questions that it asks. -/
theorem run_settles (h : ∀ a, ∃ o, Settles (ask a) o) (hdecides : ∀ a, Decides (ask a) (R a)) :
    ∃ o, Settles (p.run ask) o ∧ (o ≠ none → ∀ a, p.Asks R a → ¬ Settles (ask a) none) := by
  induction p with
  | answer b => exact ⟨some (b, 0), .of_forall fun remaining => by simp [run], fun _ _ => nofun⟩
  | ask a =>
    obtain ⟨o, ho⟩ := h a
    refine ⟨o, ho, ?_⟩
    rintro hne _ rfl hnone
    obtain ⟨remaining, hsome, hnone⟩ := (ho.and hnone).exists
    rw [hsome, Option.map_none, Option.map_eq_none_iff] at hnone
    exact hne hnone
  | and p q ihp ihq =>
    obtain ⟨op, hp, hasks⟩ := ihp
    obtain ⟨oq, hq, hasks'⟩ := ihq
    have hdecided {v : Bool} {cost : ℤ} (heq : op = some (v, cost)) : v = true ↔ p.Holds R :=
      Settles.decided (heq ▸ hp) (run_decides hdecides)
    match op with
    | none => exact ⟨none, hp.mono fun remaining hx => by rw [run_and, hx]; rfl, fun hne => (hne rfl).elim⟩
    | some (false, cost) =>
      refine ⟨some (false, cost), hp.mono fun remaining hx => by rw [run_and, hx]; rfl, ?_⟩
      rintro - a (ha | ⟨hholds, -⟩)
      · exact hasks nofun a ha
      · cases (hdecided rfl).2 hholds
    | some (true, cost) =>
      refine ⟨oq.map fun y => (y.1, cost + y.2), ?_, ?_⟩
      · filter_upwards [hp, hq.after cost] with remaining hx hy
        rw [run_and, hx]
        exact hy
      · rintro hne a (ha | ⟨-, ha⟩)
        · exact hasks nofun a ha
        · exact hasks' (fun hnone => hne (by rw [hnone]; rfl)) a ha
  | or p q ihp ihq =>
    obtain ⟨op, hp, hasks⟩ := ihp
    obtain ⟨oq, hq, hasks'⟩ := ihq
    have hdecided {v : Bool} {cost : ℤ} (heq : op = some (v, cost)) : v = true ↔ p.Holds R :=
      Settles.decided (heq ▸ hp) (run_decides hdecides)
    match op with
    | none => exact ⟨none, hp.mono fun remaining hx => by rw [run_or, hx]; rfl, fun hne => (hne rfl).elim⟩
    | some (true, cost) =>
      refine ⟨some (true, cost), hp.mono fun remaining hx => by rw [run_or, hx]; rfl, ?_⟩
      rintro - a (ha | ⟨hholds, -⟩)
      · exact hasks nofun a ha
      · exact absurd ((hdecided rfl).1 rfl) hholds
    | some (false, cost) =>
      refine ⟨oq.map fun y => (y.1, cost + y.2), ?_, ?_⟩
      · filter_upwards [hp, hq.after cost] with remaining hx hy
        rw [run_or, hx]
        exact hy
      · rintro hne a (ha | ⟨-, ha⟩)
        · exact hasks nofun a ha
        · exact hasks' (fun hnone => hne (by rw [hnone]; rfl)) a ha

end

/-! ## Nested questions -/

section

variable {plan : α → Plan α} {R : α → Prop} {depth depth' : ℕ} {a b : α}

theorem eval_succ {remaining : ℤ} (h : 0 ≤ remaining - 1) :
    eval plan (depth + 1) a remaining = (plan a).run (eval plan depth) (remaining - 1) :=
  if_neg h.not_gt

theorem eval_exhausted {remaining : ℤ} (h : remaining - 1 < 0) :
    eval plan (depth + 1) a remaining = some (false, remaining - 1) :=
  if_pos h

theorem eval_decides (hR : ∀ a, R a ↔ (plan a).Holds R) (depth : ℕ) (a : α) :
    Decides (eval plan depth a) (R a) := by
  induction depth generalizing a with
  | zero => exact fun _ _ _ hx => nomatch hx
  | succ depth ih =>
    intro remaining v rest hx
    rcases lt_or_ge (remaining - 1) 0 with hneg | hpos
    · rw [eval_exhausted hneg] at hx
      cases hx
      exact ⟨by omega, nofun, fun h0 _ => by omega⟩
    · rw [eval_succ hpos] at hx
      obtain ⟨hle, hdecides⟩ := run_decides ih _ _ _ hx
      rw [hR]
      exact ⟨by omega, hdecides⟩

theorem eval_settles (hR : ∀ a, R a ↔ (plan a).Holds R) (depth : ℕ) (a : α) :
    ∃ o, Settles (eval plan depth a) o := by
  induction depth generalizing a with
  | zero => exact ⟨none, .of_forall fun _ => rfl⟩
  | succ depth ih =>
    obtain ⟨o, ho, -⟩ := run_settles (p := plan a) ih (eval_decides hR depth)
    refine ⟨o.map fun y => (y.1, 1 + y.2), ?_⟩
    filter_upwards [ho.after 1, eventually_ge_atTop 1] with remaining hx hle
    rw [eval_succ (by omega)]
    exact hx

/-- The questions that a question leads to are nested less than `depth` times. -/
def Within (plan : α → Plan α) (R : α → Prop) : ℕ → α → Prop
  | 0, _ => False
  | depth + 1, a => ∀ b, (plan a).Asks R b → Within plan R depth b

theorem Within.mono (h : Within plan R depth a) (hle : depth ≤ depth') :
    Within plan R depth' a := by
  induction depth generalizing depth' a with
  | zero => exact h.elim
  | succ depth ih =>
    obtain ⟨depth', rfl⟩ := Nat.exists_eq_add_of_le' (Nat.lt_of_lt_of_le depth.succ_pos hle)
    exact fun b hb => ih (h b hb) (Nat.le_of_succ_le_succ hle)

theorem Within.answered (hR : ∀ a, R a ↔ (plan a).Holds R) (h : Within plan R depth a)
    (remaining : ℤ) : eval plan depth a remaining ≠ none := by
  induction depth generalizing a remaining with
  | zero => exact h.elim
  | succ depth ih =>
    rcases lt_or_ge (remaining - 1) 0 with hneg | hpos
    · rw [eval_exhausted hneg]
      nofun
    · rw [eval_succ hpos]
      cases depth with
      | zero =>
        obtain ⟨v, hv, -⟩ := run_of_silent h (remaining - 1)
        rw [hv]
        nofun
      | succ depth =>
        refine run_of_answered (fun a remaining hneg => ?_) (eval_decides hR _)
          (fun b hb => ih (h b hb)) _
        rw [eval_exhausted (by omega)]
        nofun

theorem within_of_settles (hR : ∀ a, R a ↔ (plan a).Holds R)
    (h : ¬ Settles (eval plan depth a) none) : Within plan R depth a := by
  induction depth generalizing a with
  | zero => exact (h (.of_forall fun _ => rfl)).elim
  | succ depth ih =>
    intro b hb
    obtain ⟨o, ho, hasks⟩ := run_settles (p := plan a) (eval_settles hR depth) (eval_decides hR depth)
    refine ih (hasks ?_ b hb)
    rintro rfl
    refine h ?_
    filter_upwards [ho.after 1, eventually_ge_atTop 1] with remaining hx hle
    rw [eval_succ (by omega)]
    exact hx

/-- A question is answered at a depth, on every budget, exactly when the
    questions that it leads to stay within the depth. -/
theorem within_iff (hR : ∀ a, R a ↔ (plan a).Holds R) :
    Within plan R depth a ↔ ∀ remaining, eval plan depth a remaining ≠ none := by
  refine ⟨fun h => h.answered hR, fun h => within_of_settles hR fun hnone => ?_⟩
  obtain ⟨remaining, hremaining⟩ := hnone.exists
  exact h remaining hremaining

/-- An answer at a depth is the answer at every greater depth. -/
theorem eval_mono {remaining : ℤ} {r : Bool × ℤ} (h : eval plan depth a remaining = some r)
    (hle : depth ≤ depth') : eval plan depth' a remaining = some r := by
  induction depth generalizing depth' a remaining r with
  | zero => cases h
  | succ depth ih =>
    obtain ⟨depth', rfl⟩ := Nat.exists_eq_add_of_le' (Nat.lt_of_lt_of_le depth.succ_pos hle)
    rcases lt_or_ge (remaining - 1) 0 with hneg | hpos
    · rw [eval_exhausted hneg] at h ⊢
      exact h
    · rw [eval_succ hpos] at h ⊢
      exact run_mono (fun b rest x hx => ih hx (Nat.le_of_succ_le_succ hle)) h

/-- Questions of smaller and smaller levels stay within the level, unless a
    question is reached that asks its like. -/
theorem within_iff_of_level {Level : ℕ → α → Prop} {Stuck : α → Prop} (hzero : ∀ a, ¬ Level 0 a)
    (hstuck : ∀ a, Stuck a → ∃ b, (plan a).Asks R b ∧ Stuck b)
    (hlevel : ∀ n a b, Level n a → ¬ Stuck a → (plan a).Asks R b → ∃ n' < n, Level n' b)
    {n : ℕ} (ha : Level n a) :
    Within plan R n a ↔
      ∀ b, Relation.ReflTransGen (fun a b => (plan a).Asks R b) a b → ¬ Stuck b := by
  constructor
  · intro h b hb
    have hwithin : ∃ depth, Within plan R depth b := by
      induction hb with
      | refl => exact ⟨n, h⟩
      | tail _ hasks ih =>
        obtain ⟨depth, hdepth⟩ := ih
        cases depth with
        | zero => exact hdepth.elim
        | succ depth => exact ⟨depth, hdepth _ hasks⟩
    obtain ⟨depth, hdepth⟩ := hwithin
    clear hb
    induction depth generalizing b with
    | zero => exact hdepth.elim
    | succ depth ih =>
      intro hb
      obtain ⟨b', hasks, hb'⟩ := hstuck b hb
      exact ih b' (hdepth b' hasks) hb'
  · induction n using Nat.strong_induction_on generalizing a with
    | h n ih =>
      intro h
      cases n with
      | zero => exact (hzero a ha).elim
      | succ n =>
        intro b hb
        obtain ⟨n', hn', hb'⟩ := hlevel _ a b ha (h a .refl) hb
        exact (ih n' hn' hb' fun c hc => h c (.head hb hc)).mono (Nat.le_of_lt_succ hn')

end

end Plan

end McpRuntime
