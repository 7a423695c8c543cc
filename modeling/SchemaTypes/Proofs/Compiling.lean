import Mathlib.Data.List.Forall2
import SchemaTypes.Registry.Compile

/-! # Runs of compilation steps

A compilation step changes the compiler's state and may fail. A successful run of a `do`
block comes apart into successful runs of its steps: `bind_ok` says so once, and the state
operations get their runs as simp lemmas, so that no later proof unfolds the monad.

The loops of the compiler (`forM`, `mapM`, `filterMapM`, `foldlM` over a list) are stated for
any invariant `Inv` and any preorder `Grows` on states: when every step of a loop keeps the
invariant and grows the state, so does the whole loop, and what a step vouches for about its
result stays true as the state grows further.
-/

namespace SchemaTypes.Compiling

variable {α β γ : Type}

/-- A successful run of `x >>= f` is a successful run of `x` followed by one of `f`. -/
theorem bind_ok {x : Compiling α} {f : α → Compiling β} {s s' : Compiler} {b : β}
    (run : (x >>= f).run s = .ok (b, s')) :
    ∃ a middle, x.run s = .ok (a, middle) ∧ (f a).run middle = .ok (b, s') := by
  rw [StateT.run_bind] at run
  cases first : x.run s with
  | error e => rw [first] at run; cases run
  | ok p => rw [first] at run; exact ⟨p.1, p.2, rfl, run⟩

@[simp] theorem run_pure (a : α) (s : Compiler) : (pure a : Compiling α).run s = .ok (a, s) := rfl

@[simp] theorem run_get (s : Compiler) : (get : Compiling Compiler).run s = .ok (s, s) := rfl

@[simp] theorem run_modify (f : Compiler → Compiler) (s : Compiler) :
    (modify f : Compiling Unit).run s = .ok ((), f s) := rfl

@[simp] theorem run_throw (e : Error) (s : Compiler) :
    (throw e : Compiling α).run s = .error e := rfl

theorem pure_ok {a b : α} {s s' : Compiler} (run : (pure a : Compiling α).run s = .ok (b, s')) :
    b = a ∧ s' = s := by
  simp only [run_pure, Except.ok.injEq, Prod.mk.injEq] at run
  exact ⟨run.1.symm, run.2.symm⟩

theorem throw_ok {e : Error} {s : Compiler} {p : α × Compiler}
    (run : (throw e : Compiling α).run s = .ok p) : False := by
  cases run

/-- A successful `Except` bind is a success followed by a success. -/
theorem except_bind_ok {ε : Type} {x : Except ε α} {f : α → Except ε β} {b : β}
    (run : (x >>= f) = .ok b) : ∃ a, x = .ok a ∧ f a = .ok b := by
  cases x with
  | error e => cases run
  | ok a => exact ⟨a, rfl, run⟩

theorem liftExcept_ok {x : Except Error α} {a : α} {s s' : Compiler}
    (run : (liftExcept x : Compiling α).run s = .ok (a, s')) : x = .ok a ∧ s' = s := by
  cases x with
  | error e => cases run
  | ok b =>
    simp only [liftExcept, run_pure, Except.ok.injEq, Prod.mk.injEq] at run
    exact ⟨by rw [run.1], run.2.symm⟩

/-! ## Loops -/

section Loops

variable (Inv : Compiler → Prop) (Grows : Compiler → Compiler → Prop)
  (refl : ∀ s, Grows s s) (trans : ∀ {a b c}, Grows a b → Grows b c → Grows a c)
include refl trans

/-- A `forM` loop whose every step keeps `Inv` and grows the state does so as a whole, and
what each step vouches for about its item stays true as the state grows further. -/
theorem forM_keeps {xs : List γ} {f : γ → Compiling PUnit} (Post : γ → Compiler → Prop)
    (stable : ∀ x s t, Post x s → Grows s t → Post x t)
    (step : ∀ x ∈ xs, ∀ s s', (f x).run s = .ok (⟨⟩, s') → Inv s →
      Inv s' ∧ Grows s s' ∧ Post x s') :
    ∀ s s', (forM xs f).run s = .ok (⟨⟩, s') → Inv s →
      Inv s' ∧ Grows s s' ∧ ∀ x ∈ xs, Post x s' := by
  induction xs with
  | nil =>
    intro s s' run invariant
    obtain ⟨-, rfl⟩ := pure_ok run
    exact ⟨invariant, refl _, by simp⟩
  | cons x xs inductionHypothesis =>
    intro s s' run invariant
    rw [List.forM_cons] at run
    obtain ⟨⟨⟩, middle, first, rest⟩ := bind_ok run
    obtain ⟨middleInvariant, grewFirst, post⟩ := step x (by simp) s middle first invariant
    obtain ⟨finalInvariant, grewRest, posts⟩ := inductionHypothesis
      (fun y member => step y (by simp [member])) middle s' rest middleInvariant
    refine ⟨finalInvariant, trans grewFirst grewRest, ?_⟩
    intro y member
    rcases List.mem_cons.mp member with rfl | later
    · exact stable _ _ _ post grewRest
    · exact posts y later

/-- A `mapM` loop keeps `Inv` and grows the state when each step does, and every result
satisfies what its step vouched for, as long as that survives growth. -/
theorem mapM_keeps {xs : List γ} {f : γ → Compiling β} (Post : β → Compiler → Prop)
    (stable : ∀ b s t, Post b s → Grows s t → Post b t)
    (step : ∀ x ∈ xs, ∀ s b s', (f x).run s = .ok (b, s') → Inv s →
      Inv s' ∧ Grows s s' ∧ Post b s') :
    ∀ s ys s', (xs.mapM f).run s = .ok (ys, s') → Inv s →
      Inv s' ∧ Grows s s' ∧ ∀ y ∈ ys, Post y s' := by
  induction xs with
  | nil =>
    intro s ys s' run invariant
    obtain ⟨rfl, rfl⟩ := pure_ok run
    exact ⟨invariant, refl _, by simp⟩
  | cons x xs inductionHypothesis =>
    intro s ys s' run invariant
    rw [List.mapM_cons] at run
    obtain ⟨y, middle, first, run⟩ := bind_ok run
    obtain ⟨rest, last, restRun, run⟩ := bind_ok run
    obtain ⟨rfl, rfl⟩ := pure_ok run
    obtain ⟨middleInvariant, grewFirst, post⟩ := step x (by simp) s y middle first invariant
    obtain ⟨finalInvariant, grewRest, posts⟩ := inductionHypothesis
      (fun z member => step z (by simp [member])) middle rest _ restRun middleInvariant
    refine ⟨finalInvariant, trans grewFirst grewRest, ?_⟩
    intro z member
    rcases List.mem_cons.mp member with rfl | later
    · exact stable _ _ _ post grewRest
    · exact posts z later

/-- A `filterMapM` loop keeps `Inv` and grows the state when each step does; every result
kept satisfies what its step vouched for. -/
theorem filterMapM_keeps {xs : List γ} {f : γ → Compiling (Option β)}
    (Post : β → Compiler → Prop) (stable : ∀ b s t, Post b s → Grows s t → Post b t)
    (step : ∀ x ∈ xs, ∀ s b s', (f x).run s = .ok (b, s') → Inv s →
      Inv s' ∧ Grows s s' ∧ ∀ y, b = some y → Post y s') :
    ∀ s ys s', (xs.filterMapM f).run s = .ok (ys, s') → Inv s →
      Inv s' ∧ Grows s s' ∧ ∀ y ∈ ys, Post y s' := by
  induction xs with
  | nil =>
    intro s ys s' run invariant
    obtain ⟨rfl, rfl⟩ := pure_ok run
    exact ⟨invariant, refl _, by simp⟩
  | cons x xs inductionHypothesis =>
    intro s ys s' run invariant
    rw [List.filterMapM_cons] at run
    obtain ⟨kept, middle, first, run⟩ := bind_ok run
    obtain ⟨middleInvariant, grewFirst, post⟩ := step x (by simp) s kept middle first invariant
    have rest := inductionHypothesis (fun z member => step z (by simp [member]))
    cases kept with
    | none =>
      obtain ⟨finalInvariant, grewRest, posts⟩ := rest middle ys s' run middleInvariant
      exact ⟨finalInvariant, trans grewFirst grewRest, posts⟩
    | some y =>
      obtain ⟨others, last, restRun, run⟩ := bind_ok run
      obtain ⟨rfl, rfl⟩ := pure_ok run
      obtain ⟨finalInvariant, grewRest, posts⟩ := rest middle others _ restRun middleInvariant
      refine ⟨finalInvariant, trans grewFirst grewRest, ?_⟩
      intro z member
      rcases List.mem_cons.mp member with rfl | later
      · exact stable _ _ _ (post z rfl) grewRest
      · exact posts z later

/-- A `foldlM` loop keeps `Inv` and grows the state when each step does, and an accumulator
property that each step carries over holds of the final accumulator. -/
theorem foldlM_keeps {xs : List γ} {f : β → γ → Compiling β} (Acc : β → Compiler → Prop)
    (step : ∀ x ∈ xs, ∀ acc s acc' s', Acc acc s → (f acc x).run s = .ok (acc', s') → Inv s →
      Inv s' ∧ Grows s s' ∧ Acc acc' s') :
    ∀ init s result s', Acc init s → (xs.foldlM f init).run s = .ok (result, s') → Inv s →
      Inv s' ∧ Grows s s' ∧ Acc result s' := by
  induction xs with
  | nil =>
    intro init s result s' holds run invariant
    obtain ⟨rfl, rfl⟩ := pure_ok run
    exact ⟨invariant, refl _, holds⟩
  | cons x xs inductionHypothesis =>
    intro init s result s' holds run invariant
    rw [List.foldlM_cons] at run
    obtain ⟨acc, middle, first, rest⟩ := bind_ok run
    obtain ⟨middleInvariant, grewFirst, carried⟩ := step x (by simp) init s acc middle holds first
      invariant
    obtain ⟨finalInvariant, grewRest, final⟩ := inductionHypothesis
      (fun z member => step z (by simp [member])) acc middle result s' carried rest middleInvariant
    exact ⟨finalInvariant, trans grewFirst grewRest, final⟩

end Loops

/-- A `foldlM` loop satisfies an invariant of the items done so far, the accumulator and the
state, when every step carries it from the items before an item to those up to it. -/
theorem foldlM_prefix {xs : List γ} {f : β → γ → Compiling β} (Acc : List γ → β → Compiler → Prop)
    (step : ∀ done x, done ++ [x] <+: xs → ∀ acc s acc' s', Acc done acc s →
      (f acc x).run s = .ok (acc', s') → Acc (done ++ [x]) acc' s') :
    ∀ init s result s', Acc [] init s → (xs.foldlM f init).run s = .ok (result, s') →
      Acc xs result s' := by
  -- the loop is run from every split of `xs` into the items done and the items left
  suffices left : ∀ rest done, done ++ rest = xs → ∀ acc s result s', Acc done acc s →
      (rest.foldlM f acc).run s = .ok (result, s') → Acc xs result s' from
    fun init s result s' holds run => left xs [] rfl init s result s' holds run
  intro rest
  induction rest with
  | nil =>
    intro done split acc s result s' holds run
    obtain ⟨rfl, rfl⟩ := pure_ok run
    simpa [← split] using holds
  | cons x rest inductionHypothesis =>
    intro done split acc s result s' holds run
    rw [List.foldlM_cons] at run
    obtain ⟨acc', middle, first, later⟩ := bind_ok run
    have carried := step done x ⟨rest, by simp [← split]⟩ acc s acc' middle holds first
    exact inductionHypothesis (done ++ [x]) (by simp [← split]) acc' middle result s' carried later

/-- A `mapM` loop whose steps only read the state relates every item to its result. -/
theorem mapM_reads {xs : List γ} {f : γ → Compiling β} (R : γ → β → Prop)
    (step : ∀ x ∈ xs, ∀ s b s', (f x).run s = .ok (b, s') → s' = s ∧ R x b) :
    ∀ s ys s', (xs.mapM f).run s = .ok (ys, s') → s' = s ∧ List.Forall₂ R xs ys := by
  induction xs with
  | nil =>
    intro s ys s' run
    obtain ⟨rfl, rfl⟩ := pure_ok run
    exact ⟨rfl, .nil⟩
  | cons x xs inductionHypothesis =>
    intro s ys s' run
    rw [List.mapM_cons] at run
    obtain ⟨y, middle, first, run⟩ := bind_ok run
    obtain ⟨rest, last, restRun, run⟩ := bind_ok run
    obtain ⟨rfl, rfl⟩ := pure_ok run
    obtain ⟨same, related⟩ := step x (by simp) s y middle first
    subst middle
    obtain ⟨sameRest, relatedRest⟩ := inductionHypothesis
      (fun z member => step z (by simp [member])) s rest _ restRun
    exact ⟨sameRest, .cons related relatedRest⟩

end SchemaTypes.Compiling
