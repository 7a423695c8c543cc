import Mathlib.Data.List.Forall2
import SchemaTypes.Registry.Instance

/-! # Runs of loading steps

Casting and loading thread the special names of the composite types (`Vocabulary`) and may
fail. This module takes their runs apart once, as `Compiling` does for compilation steps:
a successful run of a `do` block is a successful run of each of its steps, and a step
*avoids* a kind of failure when none of its failed runs, from any special names, fails that
way. Avoiding a failure is kept by every way the cast functions combine steps: sequencing,
lifting an `Except`, rewording the failure, and the loops over lists. A step *yields* a value
when some run of it succeeds with that value; a step that yields a value comes apart into
steps that yield theirs.
-/

namespace SchemaTypes

variable {ε ε' α β γ : Type}

/-- No failed run of the step, from any special names, fails in a way `bad` describes. -/
def Avoids (bad : ε → Prop) (x : ExceptT ε (StateM Vocabulary) α) : Prop :=
  ∀ vocab e, ((ExceptT.run x).run vocab).1 = .error e → ¬ bad e

namespace Avoids

variable {bad : ε → Prop}

theorem pure (a : α) : Avoids bad (Pure.pure a : ExceptT ε (StateM Vocabulary) α) := by
  intro vocab e run
  cases run

theorem throw {e : ε} (good : ¬ bad e) :
    Avoids bad (MonadExcept.throw e : ExceptT ε (StateM Vocabulary) α) := by
  intro vocab e' run
  cases run
  exact good

theorem bind {x : ExceptT ε (StateM Vocabulary) α} {f : α → ExceptT ε (StateM Vocabulary) β}
    (first : Avoids bad x) (rest : ∀ a, Avoids bad (f a)) : Avoids bad (x >>= f) := by
  intro vocab e run
  cases ran : (ExceptT.run x).run vocab with
  | mk result vocab' =>
    cases result with
    | error e' =>
      have failed : ((ExceptT.run (x >>= f)).run vocab).1 = .error e' := by
        simp only [ExceptT.run_bind, StateT.run_bind, ran]
        rfl
      rw [failed] at run
      cases run
      exact first vocab e (by rw [ran])
    | ok a =>
      have continued : (ExceptT.run (x >>= f)).run vocab = (ExceptT.run (f a)).run vocab' := by
        simp only [ExceptT.run_bind, StateT.run_bind, ran]
        rfl
      exact rest a vocab' e (by rw [← continued]; exact run)

theorem ofExcept {x : Except ε α} (good : ∀ e, x = .error e → ¬ bad e) :
    Avoids bad (liftExcept x : ExceptT ε (StateM Vocabulary) α) := by
  cases x with
  | error e => exact throw (good e rfl)
  | ok a => exact pure a

/-- Lifting an `Except` and going on from its value: only the value it has matters. -/
theorem exceptBind {x : Except ε α} {f : α → ExceptT ε (StateM Vocabulary) β}
    (good : ∀ e, x = .error e → ¬ bad e) (rest : ∀ a, x = .ok a → Avoids bad (f a)) :
    Avoids bad (liftExcept x >>= f) := by
  intro vocab e run
  cases x with
  | error e' => cases run; exact good _ rfl
  | ok a => exact rest a rfl vocab e run

theorem lift (x : StateM Vocabulary α) : Avoids bad (x : ExceptT ε (StateM Vocabulary) α) := by
  intro vocab e run
  cases run

theorem run_adapt {x : ExceptT ε (StateM Vocabulary) α} {f : ε → ε'} (vocab : Vocabulary) :
    (ExceptT.run (x.adapt f)).run vocab =
      (((ExceptT.run x).run vocab).1.mapError f, ((ExceptT.run x).run vocab).2) := rfl

theorem adapt {bad' : ε' → Prop} {x : ExceptT ε (StateM Vocabulary) α} {f : ε → ε'}
    (first : Avoids bad x) (maps : ∀ e, ¬ bad e → ¬ bad' (f e)) : Avoids bad' (x.adapt f) := by
  intro vocab e run
  rw [run_adapt] at run
  cases ran : ((ExceptT.run x).run vocab).1 with
  | error e' =>
    rw [ran] at run
    cases run
    exact maps e' (first vocab e' ran)
  | ok a => rw [ran] at run; cases run

theorem foldlM {xs : List γ} {f : β → γ → ExceptT ε (StateM Vocabulary) β}
    (step : ∀ acc, ∀ x ∈ xs, Avoids bad (f acc x)) : ∀ init, Avoids bad (xs.foldlM f init) := by
  induction xs with
  | nil => exact fun init => pure init
  | cons x xs inductionHypothesis =>
    intro init
    rw [List.foldlM_cons]
    exact bind (step init x List.mem_cons_self)
      fun acc => inductionHypothesis (fun acc y member => step acc y (List.mem_cons_of_mem _ member)) acc

theorem mapM {xs : List γ} {f : γ → ExceptT ε (StateM Vocabulary) β}
    (step : ∀ x ∈ xs, Avoids bad (f x)) : Avoids bad (xs.mapM f) := by
  induction xs with
  | nil => exact pure []
  | cons x xs inductionHypothesis =>
    rw [List.mapM_cons]
    exact bind (step x List.mem_cons_self) fun y =>
      bind (inductionHypothesis fun z member => step z (List.mem_cons_of_mem _ member))
        fun ys => pure (y :: ys)

end Avoids

/-- Some run of the step, from some special names, succeeds with `a`. -/
def Yields (x : ExceptT ε (StateM Vocabulary) α) (a : α) : Prop :=
  ∃ vocab vocab', (ExceptT.run x).run vocab = (.ok a, vocab')

namespace Yields

theorem pure_inv {a b : α} (yields : Yields (Pure.pure a : ExceptT ε (StateM Vocabulary) α) b) :
    b = a := by
  obtain ⟨vocab, vocab', run⟩ := yields
  cases run
  rfl

theorem throw_inv {e : ε} {b : α}
    (yields : Yields (MonadExcept.throw e : ExceptT ε (StateM Vocabulary) α) b) : False := by
  obtain ⟨vocab, vocab', run⟩ := yields
  cases run

theorem bind_inv {x : ExceptT ε (StateM Vocabulary) α} {f : α → ExceptT ε (StateM Vocabulary) β}
    {b : β} (yields : Yields (x >>= f) b) : ∃ a, Yields x a ∧ Yields (f a) b := by
  obtain ⟨vocab, vocab'', run⟩ := yields
  cases ran : (ExceptT.run x).run vocab with
  | mk result vocab' =>
    cases result with
    | error e =>
      have failed : ((ExceptT.run (x >>= f)).run vocab).1 = .error e := by
        simp only [ExceptT.run_bind, StateT.run_bind, ran]
        rfl
      rw [run] at failed
      cases failed
    | ok a =>
      have continued : (ExceptT.run (x >>= f)).run vocab = (ExceptT.run (f a)).run vocab' := by
        simp only [ExceptT.run_bind, StateT.run_bind, ran]
        rfl
      exact ⟨a, ⟨vocab, vocab', ran⟩, vocab', vocab'', continued ▸ run⟩

theorem adapt_inv {x : ExceptT ε (StateM Vocabulary) α} {f : ε → ε'} {a : α}
    (yields : Yields (x.adapt f) a) : Yields x a := by
  obtain ⟨vocab, vocab', run⟩ := yields
  rw [Avoids.run_adapt] at run
  refine ⟨vocab, vocab', ?_⟩
  cases ran : (ExceptT.run x).run vocab with
  | mk result after =>
    rw [ran] at run
    cases result with
    | error e => cases run
    | ok b => cases run; rfl

theorem lift_inv {x : StateM Vocabulary α} {a : α}
    (yields : Yields (x : ExceptT ε (StateM Vocabulary) α) a) : ∃ vocab, (x.run vocab).1 = a := by
  obtain ⟨vocab, vocab', run⟩ := yields
  have lifted : (ExceptT.run (x : ExceptT ε (StateM Vocabulary) α)).run vocab =
      (.ok (x.run vocab).1, (x.run vocab).2) := rfl
  rw [lifted] at run
  cases run
  exact ⟨vocab, rfl⟩

theorem ofExcept_inv {x : Except ε α} {a : α}
    (yields : Yields (liftExcept x : ExceptT ε (StateM Vocabulary) α) a) : x = .ok a := by
  cases x with
  | error e => exact (throw_inv yields).elim
  | ok b => rw [pure_inv yields]

theorem mapM_inv {xs : List γ} {f : γ → ExceptT ε (StateM Vocabulary) β} :
    ∀ {ys : List β}, Yields (xs.mapM f) ys → List.Forall₂ (fun x y => Yields (f x) y) xs ys := by
  induction xs with
  | nil =>
    intro ys yields
    rw [pure_inv yields]
    exact .nil
  | cons x xs inductionHypothesis =>
    intro ys yields
    rw [List.mapM_cons] at yields
    obtain ⟨y, first, rest⟩ := bind_inv yields
    obtain ⟨others, later, last⟩ := bind_inv rest
    rw [pure_inv last]
    exact .cons first (inductionHypothesis later)

/-- A `foldlM` loop keeps an accumulator property that every step keeps. -/
theorem foldlM_inv {xs : List γ} {f : β → γ → ExceptT ε (StateM Vocabulary) β} (Acc : β → Prop)
    (step : ∀ acc, ∀ x ∈ xs, ∀ acc', Acc acc → Yields (f acc x) acc' → Acc acc') :
    ∀ init result, Acc init → Yields (xs.foldlM f init) result → Acc result := by
  induction xs with
  | nil =>
    intro init result holds yields
    rw [List.foldlM_nil] at yields
    rw [pure_inv yields]
    exact holds
  | cons x xs inductionHypothesis =>
    intro init result holds yields
    rw [List.foldlM_cons] at yields
    obtain ⟨acc, first, rest⟩ := bind_inv yields
    exact inductionHypothesis (fun acc y member => step acc y (List.mem_cons_of_mem _ member)) acc
      result (step init x List.mem_cons_self acc holds first) rest

end Yields

/-- Every run of the step, from any special names, succeeds with `a`. -/
def Returns (x : ExceptT ε (StateM Vocabulary) α) (a : α) : Prop :=
  ∀ vocab, ∃ vocab', (ExceptT.run x).run vocab = (.ok a, vocab')

namespace Returns

theorem pure (a : α) : Returns (Pure.pure a : ExceptT ε (StateM Vocabulary) α) a :=
  fun vocab => ⟨vocab, rfl⟩

theorem bind {x : ExceptT ε (StateM Vocabulary) α} {f : α → ExceptT ε (StateM Vocabulary) β}
    {a : α} {b : β} (first : Returns x a) (rest : Returns (f a) b) : Returns (x >>= f) b := by
  intro vocab
  obtain ⟨vocab', ran⟩ := first vocab
  obtain ⟨vocab'', continued⟩ := rest vocab'
  refine ⟨vocab'', ?_⟩
  have step : (ExceptT.run (x >>= f)).run vocab = (ExceptT.run (f a)).run vocab' := by
    simp only [ExceptT.run_bind, StateT.run_bind, ran]
    rfl
  rw [step, continued]

theorem map {x : ExceptT ε (StateM Vocabulary) α} {f : α → β} {a : α} (first : Returns x a) :
    Returns (f <$> x) (f a) := by
  intro vocab
  obtain ⟨vocab', ran⟩ := first vocab
  exact ⟨vocab', by simp only [ExceptT.run_map, StateT.run_map, ran]; rfl⟩

theorem ofExcept {x : Except ε α} {a : α} (ok : x = .ok a) :
    Returns (liftExcept x : ExceptT ε (StateM Vocabulary) α) a := by
  subst ok
  exact pure a

theorem adapt {x : ExceptT ε (StateM Vocabulary) α} {f : ε → ε'} {a : α} (first : Returns x a) :
    Returns (x.adapt f) a := by
  intro vocab
  obtain ⟨vocab', ran⟩ := first vocab
  exact ⟨vocab', by rw [Avoids.run_adapt, ran]; rfl⟩

theorem lift {x : StateM Vocabulary α} {a : α} (always : ∀ vocab, (x.run vocab).1 = a) :
    Returns (x : ExceptT ε (StateM Vocabulary) α) a := by
  intro vocab
  refine ⟨(x.run vocab).2, ?_⟩
  rw [← always vocab]
  rfl

end Returns

end SchemaTypes
