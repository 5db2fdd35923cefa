import Mathlib.Init

/-! Weakest preconditions for programs that carry a state and may raise. The state
reached survives a raise, so an assertion has one part for each way to end. -/
namespace ProgramLogic
variable {ε σ α β : Type}

/-- `normal` holds of what `m` returns and of the state it ends in, and `raised` of the
error and the state when it raises. -/
def wp (m : EStateM ε σ α) (normal : α → σ → Prop) (raised : ε → σ → Prop) (s : σ) : Prop :=
  match m.run s with
  | .ok a s' => normal a s'
  | .error e s' => raised e s'

variable {normal : α → σ → Prop} {raised : ε → σ → Prop} {s : σ}

@[simp] theorem wp_pure (a : α) : wp (pure a) normal raised s ↔ normal a s := Iff.rfl

@[simp] theorem wp_throw (e : ε) :
    wp (throw e : EStateM ε σ α) normal raised s ↔ raised e s := Iff.rfl

@[simp] theorem wp_get {normal : σ → σ → Prop} :
    wp (get : EStateM ε σ σ) normal raised s ↔ normal s s := Iff.rfl

@[simp] theorem wp_set {normal : PUnit → σ → Prop} (s' : σ) :
    wp (set s' : EStateM ε σ PUnit) normal raised s ↔ normal ⟨⟩ s' := Iff.rfl

@[simp] theorem wp_modify {normal : PUnit → σ → Prop} (f : σ → σ) :
    wp (modify f : EStateM ε σ PUnit) normal raised s ↔ normal ⟨⟩ (f s) := Iff.rfl

@[simp] theorem wp_bind (m : EStateM ε σ β) (next : β → EStateM ε σ α) :
    wp (m >>= next) normal raised s ↔
      wp m (fun b s' => wp (next b) normal raised s') raised s := by
  simp only [wp, EStateM.run, bind, EStateM.bind]
  cases m s <;> exact Iff.rfl

@[simp] theorem wp_map {γ : Type} {normal : γ → σ → Prop} (f : α → γ) (m : EStateM ε σ α) :
    wp (f <$> m) normal raised s ↔ wp m (fun a s' => normal (f a) s') raised s := by
  simp only [wp, EStateM.run, Functor.map, EStateM.map]
  cases m s <;> exact Iff.rfl

theorem wp_ite (c : Prop) [Decidable c] (m n : EStateM ε σ α) :
    wp (if c then m else n) normal raised s ↔
      (c → wp m normal raised s) ∧ (¬ c → wp n normal raised s) := by
  split <;> simp_all

theorem wp_mono {m : EStateM ε σ α} {normal' : α → σ → Prop} {raised' : ε → σ → Prop}
    (holds : wp m normal raised s) (onNormal : ∀ a s', normal a s' → normal' a s')
    (onRaised : ∀ e s', raised e s' → raised' e s') : wp m normal' raised' s := by
  unfold wp at *
  cases ran : m.run s <;> simp only [ran] at holds ⊢
  · exact onNormal _ _ holds
  · exact onRaised _ _ holds

theorem wp_intro {m : EStateM ε σ α} (onNormal : ∀ a s', normal a s')
    (onRaised : ∀ e s', raised e s') : wp m normal raised s := by
  unfold wp
  cases m.run s
  · exact onNormal _ _
  · exact onRaised _ _

theorem wp_and {m : EStateM ε σ α} {normal' : α → σ → Prop} {raised' : ε → σ → Prop}
    (first : wp m normal raised s) (second : wp m normal' raised' s) :
    wp m (fun a s' => normal a s' ∧ normal' a s') (fun e s' => raised e s' ∧ raised' e s') s := by
  unfold wp at *
  cases ran : m.run s <;> simp only [ran] at first second ⊢ <;> exact ⟨first, second⟩

theorem wp_ok {m : EStateM ε σ α} {a : α} {s' : σ} (holds : wp m normal raised s)
    (ran : m.run s = .ok a s') : normal a s' := by
  simpa only [wp, ran] using holds

theorem wp_error {m : EStateM ε σ α} {e : ε} {s' : σ} (holds : wp m normal raised s)
    (ran : m.run s = .error e s') : raised e s' := by
  simpa only [wp, ran] using holds

theorem wp_run {m : EStateM ε σ α} {a : α} {s' : σ} (ran : m.run s = .ok a s') :
    wp m normal raised s ↔ normal a s' := by
  simp only [wp, ran]

/-- A program ends in one way or the other. -/
theorem wp_false {m : EStateM ε σ α} (holds : wp m (fun _ _ => False) (fun _ _ => False) s) :
    False := by
  unfold wp at holds
  cases ran : m.run s <;> simp only [ran] at holds

/-- An assertion is what holds of the one run there is. -/
theorem wp_of_runs {m : EStateM ε σ α}
    (onNormal : ∀ a s', m.run s = .ok a s' → normal a s')
    (onRaised : ∀ e s', m.run s = .error e s' → raised e s') : wp m normal raised s := by
  unfold wp
  cases ran : m.run s
  · exact onNormal _ _ ran
  · exact onRaised _ _ ran

/-- Whether `m` returns, which a run decides. -/
def returns (m : EStateM ε σ α) (s : σ) : Bool :=
  match m.run s with
  | .ok _ _ => true
  | .error _ _ => false

theorem returns_iff_wp {m : EStateM ε σ α} :
    returns m s = true ↔ wp m (fun _ _ => True) (fun _ _ => False) s := by
  unfold wp returns
  cases m.run s <;> simp

theorem wp_of_returns {m : EStateM ε σ α} (returned : returns m s = true) :
    wp m (fun _ _ => True) (fun _ _ => False) s := by
  unfold wp
  unfold returns at returned
  cases ran : m.run s
  · trivial
  · simp [ran] at returned

/-- The state that a program leaves, whether it returns or raises. -/
def after (m : EStateM ε σ α) (s : σ) : σ :=
  match m.run s with
  | .ok _ t => t
  | .error _ t => t

/-- What a program returns, if it does not raise. -/
def answer (m : EStateM ε σ α) (s : σ) : Option α :=
  match m.run s with
  | .ok a _ => some a
  | .error _ _ => none

theorem run_of_answer {m : EStateM ε σ α} {a : α} (answered : answer m s = some a) :
    m.run s = .ok a (after m s) := by
  unfold answer at answered
  unfold after
  cases ran : m.run s with
  | ok b t =>
    simp only [ran, Option.some.injEq] at answered ⊢
    rw [answered]
  | error e t => simp [ran] at answered

theorem wp_outcome {m : EStateM ε σ α} {Q : Option α → σ → Prop} :
    wp m (fun a t => Q (some a) t) (fun _ t => Q none t) s ↔ Q (answer m s) (after m s) := by
  unfold wp answer after
  cases m.run s <;> exact Iff.rfl

theorem wp_after {m : EStateM ε σ α} {Q : σ → Prop} :
    wp m (fun _ t => Q t) (fun _ t => Q t) s ↔ Q (after m s) :=
  wp_outcome (Q := fun _ t => Q t)

/-- Two programs that go on alike from every result of a first one. -/
theorem bind_eq_of_wp {m : EStateM ε σ β} {next next' : β → EStateM ε σ α}
    (alike : ∀ s, wp m (fun b s' => (next b).run s' = (next' b).run s') (fun _ _ => True) s) :
    m >>= next = m >>= next' := by
  funext s
  have here := alike s
  simp only [wp, EStateM.run, bind, EStateM.bind] at here ⊢
  cases ran : m s <;> simp only [ran] at here ⊢
  exact here

theorem get_apply (s : σ) : (get : EStateM ε σ σ) s = .ok s s := rfl

theorem set_apply (s t : σ) : (set t : EStateM ε σ PUnit) s = .ok ⟨⟩ t := rfl

theorem modify_apply (f : σ → σ) (s : σ) : (modify f : EStateM ε σ PUnit) s = .ok ⟨⟩ (f s) := rfl

/-- A program that acts on a part of the state. -/
def zoom {τ : Type} (read : σ → τ) (write : τ → σ → σ) (m : EStateM ε τ α) : EStateM ε σ α :=
  fun s =>
    match m.run (read s) with
    | .ok a t => .ok a (write t s)
    | .error e t => .error e (write t s)

@[simp] theorem wp_zoom {τ : Type} (read : σ → τ) (write : τ → σ → σ) (m : EStateM ε τ α) :
    wp (zoom read write m) normal raised s ↔
      wp m (fun a t => normal a (write t s)) (fun e t => raised e (write t s)) (read s) := by
  simp only [wp, zoom, EStateM.run]
  cases m (read s) <;> exact Iff.rfl

/-! ### What a program preserves -/

/-- What held before `m` holds after it, however it ends. -/
def Preserves (P : σ → Prop) (m : EStateM ε σ α) : Prop :=
  ∀ s, P s → wp m (fun _ => P) (fun _ => P) s

namespace Preserves
variable {P : σ → Prop}

theorem pure (a : α) : Preserves P (Pure.pure a : EStateM ε σ α) := fun _ holds => holds

theorem throw (e : ε) : Preserves P (throw e : EStateM ε σ α) := fun _ holds => holds

theorem get : Preserves P (get : EStateM ε σ σ) := fun _ holds => holds

theorem modify {f : σ → σ} (keeps : ∀ s, P s → P (f s)) :
    Preserves P (modify f : EStateM ε σ PUnit) := keeps

theorem set {s' : σ} (holds : P s') : Preserves P (set s' : EStateM ε σ PUnit) := fun _ _ => holds

theorem bind {m : EStateM ε σ β} {next : β → EStateM ε σ α} (first : Preserves P m)
    (second : ∀ b, Preserves P (next b)) : Preserves P (m >>= next) := by
  intro s holds
  rw [wp_bind]
  exact wp_mono (first s holds) (fun b t after => second b t after) fun _ _ after => after

theorem get_bind {next : σ → EStateM ε σ α} (rest : ∀ s, P s → wp (next s) (fun _ => P) (fun _ => P) s) :
    Preserves P (MonadState.get >>= next) := rest

/-- What is preserved by a first step may be assumed of the steps after it. -/
theorem seq {m : EStateM ε σ β} {next : β → EStateM ε σ α} {normal : α → σ → Prop}
    {raised : ε → σ → Prop} {s : σ} (first : Preserves P m) (holds : P s)
    (fails : ∀ e t, P t → raised e t) (rest : ∀ b t, P t → wp (next b) normal raised t) :
    wp (m >>= next) normal raised s := by
  rw [wp_bind]
  exact wp_mono (first s holds) rest fails

theorem ite {c : Prop} [Decidable c] {m n : EStateM ε σ α} (yes : Preserves P m)
    (no : Preserves P n) : Preserves P (if c then m else n) := by
  split
  · exact yes
  · exact no

theorem zoom {τ : Type} {read : σ → τ} {write : τ → σ → σ} {m : EStateM ε τ α}
    (keeps : ∀ r s, P s → P (write r s)) : Preserves P (zoom read write m) := by
  intro s holds
  rw [wp_zoom]
  exact wp_intro (fun _ _ => keeps _ _ holds) fun _ _ => keeps _ _ holds

/-- The part acted on keeps an assertion of its own. -/
theorem within {τ : Type} {R : τ → Prop} {read : σ → τ} {write : τ → σ → σ}
    {m : EStateM ε τ α} (inner : Preserves R m) (enter : ∀ s, P s → R (read s))
    (leave : ∀ t s, R t → P (write t s)) : Preserves P (ProgramLogic.zoom read write m) := by
  intro s holds
  rw [wp_zoom]
  exact wp_mono (inner _ (enter s holds)) (fun _ t after => leave t s after)
    fun _ t after => leave t s after

end Preserves

/-! ### What a program raises -/

/-- Every error that `m` raises is one of `R`. -/
def Raises (R : ε → Prop) (m : EStateM ε σ α) : Prop :=
  ∀ s, wp m (fun _ _ => True) (fun e _ => R e) s

namespace Raises
variable {R : ε → Prop}

theorem pure (a : α) : Raises R (Pure.pure a : EStateM ε σ α) := fun _ => trivial

theorem get : Raises R (get : EStateM ε σ σ) := fun _ => trivial

theorem modify (f : σ → σ) : Raises R (modify f : EStateM ε σ PUnit) := fun _ => trivial

theorem set (s' : σ) : Raises R (set s' : EStateM ε σ PUnit) := fun _ => trivial

theorem throw {e : ε} (holds : R e) : Raises R (throw e : EStateM ε σ α) := fun _ => holds

theorem zoom {τ : Type} {read : σ → τ} {write : τ → σ → σ} {m : EStateM ε τ α}
    (inner : Raises R m) : Raises R (ProgramLogic.zoom read write m) := by
  intro s
  rw [wp_zoom]
  exact inner (read s)

theorem bind {m : EStateM ε σ β} {next : β → EStateM ε σ α} (first : Raises R m)
    (second : ∀ b, Raises R (next b)) : Raises R (m >>= next) := by
  intro s
  rw [wp_bind]
  exact wp_mono (first s) (fun b t _ => second b t) fun _ _ raised => raised

theorem ite {c : Prop} [Decidable c] {m n : EStateM ε σ α} (yes : Raises R m)
    (no : Raises R n) : Raises R (if c then m else n) := by
  split
  · exact yes
  · exact no

end Raises

end ProgramLogic
