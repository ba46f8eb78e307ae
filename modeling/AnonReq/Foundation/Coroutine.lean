import Mathlib.Data.List.Basic

/-!
# Programs that suspend

A program runs on a state and leaves a trace of its acts. Where it suspends, its script says what
happens meanwhile and how it goes on: it proceeds, it fails, or it is interrupted; at the end of the
script it stays suspended. A failure can be caught, an interruption cannot, and a program can be
ensured to run after another one, however that ends.

* `Triple P m post exits`: from a state and trace with `P`, the program returns with `post`, or ends
  with `exits`.
* `Triple.bind`, `Triple.suspend`, `Triple.catchFailure`, `Triple.ensure`: the rules.
-/

namespace Coroutine

universe u

/-- How a program goes on at a suspension. -/
inductive Signal where
  | proceeds
  | fails
  | interrupts
deriving DecidableEq

/-- How a program ends that does not return. -/
inductive Exit where
  | failed
  | interrupted
  | paused
deriving DecidableEq

/-- An entry of a trace: of the environment or of the program. -/
inductive Entry (ε α : Type*) where
  | env (e : ε)
  | act (a : α)
deriving DecidableEq

/-- A suspension: what happens meanwhile, and how the program goes on. -/
structure Suspension (ε : Type*) where
  occurs : List ε := []
  signal : Signal := .proceeds

/-- The state, the trace so far, and the script of the suspensions to come. -/
structure World (ε α σ : Type*) where
  state : σ
  trace : List (Entry ε α) := []
  script : List (Suspension ε)

/-- A program with results in `β`. -/
def Program (ε α σ : Type u) (β : Type u) : Type u := World ε α σ → Except Exit β × World ε α σ

variable {ε α σ β γ : Type u}

namespace Program

/-- One program after another. -/
def bind (m : Program ε α σ β) (f : β → Program ε α σ γ) : Program ε α σ γ := fun w =>
  match m w with
  | (.ok b, w) => f b w
  | (.error e, w) => (.error e, w)

instance : Monad (Program ε α σ) where
  pure b := fun w => (.ok b, w)
  bind := bind

/-- The state. -/
def get : Program ε α σ σ := fun w => (.ok w.state, w)

/-- Change the state. -/
def modify (f : σ → σ) : Program ε α σ PUnit := fun w =>
  (.ok ⟨⟩, { w with state := f w.state })

/-- Act. -/
def act (a : α) : Program ε α σ PUnit := fun w =>
  (.ok ⟨⟩, { w with trace := w.trace ++ [.act a] })

/-- What was done and what happened so far. -/
def history : Program ε α σ (List (Entry ε α)) := fun w => (.ok w.trace, w)

/-- Fail. -/
def fail : Program ε α σ β := fun w => (.error .failed, w)

/-- Suspend. -/
def suspend : Program ε α σ PUnit := fun w =>
  match w.script with
  | [] => (.error .paused, w)
  | s :: script =>
    let w := { w with trace := w.trace ++ s.occurs.map Entry.env, script := script }
    match s.signal with
    | .proceeds => (.ok ⟨⟩, w)
    | .fails => (.error .failed, w)
    | .interrupts => (.error .interrupted, w)

/-- A program, and another one if it fails. -/
def catchFailure (m handler : Program ε α σ β) : Program ε α σ β := fun w =>
  match m w with
  | (.error .failed, w) => handler w
  | r => r

/-- A program, and another one after it, unless it stays suspended. -/
def ensure (m : Program ε α σ β) (final : Program ε α σ PUnit) : Program ε α σ β := fun w =>
  match m w with
  | (.error .paused, w) => (.error .paused, w)
  | (r, w) =>
    match final w with
    | (.ok _, w) => (r, w)
    | (.error e, w) => (.error e, w)

end Program

open Program

/-- From a state and trace with `P`, the program returns with `post`, or ends with `exits`. -/
def Triple (P : σ → List (Entry ε α) → Prop) (m : Program ε α σ β)
    (post : β → σ → List (Entry ε α) → Prop) (exits : Exit → σ → List (Entry ε α) → Prop) : Prop :=
  ∀ w, P w.state w.trace →
    match m w with
    | (.ok b, w) => post b w.state w.trace
    | (.error e, w) => exits e w.state w.trace

variable {P P' : σ → List (Entry ε α) → Prop} {m : Program ε α σ β}
  {post post' : β → σ → List (Entry ε α) → Prop} {exits exits' : Exit → σ → List (Entry ε α) → Prop}

namespace Triple

/-- **Consequence.** -/
theorem mono (h : Triple P' m post' exits') (hpre : ∀ s t, P s t → P' s t)
    (hpost : ∀ b s t, post' b s t → post b s t) (hexits : ∀ e s t, exits' e s t → exits e s t) :
    Triple P m post exits := by
  intro w hw
  have hrun := h w (hpre _ _ hw)
  split
  · rename_i heq
    rw [heq] at hrun
    exact hpost _ _ _ hrun
  · rename_i heq
    rw [heq] at hrun
    exact hexits _ _ _ hrun

theorem pure {b : β} (h : ∀ s t, P s t → post b s t) : Triple P (pure b) post exits :=
  fun w hw => h w.state w.trace hw

theorem get {post : σ → σ → List (Entry ε α) → Prop} (h : ∀ s t, P s t → post s s t) :
    Triple P Program.get post exits :=
  fun w hw => h w.state w.trace hw

theorem history {post : List (Entry ε α) → σ → List (Entry ε α) → Prop}
    (h : ∀ s t, P s t → post t s t) : Triple P Program.history post exits :=
  fun w hw => h w.state w.trace hw

theorem modify {f : σ → σ} {post : PUnit → σ → List (Entry ε α) → Prop}
    (h : ∀ s t, P s t → post ⟨⟩ (f s) t) : Triple P (Program.modify f) post exits :=
  fun w hw => h w.state w.trace hw

theorem act {a : α} {post : PUnit → σ → List (Entry ε α) → Prop}
    (h : ∀ s t, P s t → post ⟨⟩ s (t ++ [.act a])) : Triple P (Program.act a) post exits :=
  fun w hw => h w.state w.trace hw

theorem fail (h : ∀ s t, P s t → exits .failed s t) :
    Triple P (Program.fail : Program ε α σ β) post exits :=
  fun w hw => h w.state w.trace hw

/-- **Suspending.** What holds whatever happens meanwhile holds after it, however it goes on. -/
theorem suspend {Q : σ → List (Entry ε α) → Prop} {post : PUnit → σ → List (Entry ε α) → Prop}
    (h : ∀ s t (occurs : List ε), P s t → Q s (t ++ occurs.map Entry.env))
    (hpost : ∀ s t, Q s t → post ⟨⟩ s t) (hexits : ∀ e s t, Q s t → exits e s t) :
    Triple P Program.suspend post exits := by
  intro w hw
  unfold Program.suspend
  cases hscript : w.script with
  | nil => exact hexits _ _ _ (by simpa using h _ _ [] hw)
  | cons s script =>
    obtain ⟨occurs, signal⟩ := s
    have hQ := h w.state w.trace occurs hw
    cases signal with
    | proceeds => exact hpost _ _ hQ
    | fails => exact hexits _ _ _ hQ
    | interrupts => exact hexits _ _ _ hQ

/-- What holds whatever happens meanwhile is kept by a suspension. -/
theorem suspend_keeps (h : ∀ s t (occurs : List ε), P s t → P s (t ++ occurs.map Entry.env)) :
    Triple P Program.suspend (fun _ => P) fun _ => P :=
  suspend h (fun _ _ => id) fun _ _ _ => id

/-- **Cases.** Each case of a precondition by itself. -/
theorem of_exists {ι : Sort*} {P : ι → σ → List (Entry ε α) → Prop}
    (h : ∀ i, Triple (P i) m post exits) : Triple (fun s t => ∃ i, P i s t) m post exits :=
  fun w ⟨i, hw⟩ => h i w hw

/-- **Sequence.** -/
theorem bind {mid : β → σ → List (Entry ε α) → Prop} {f : β → Program ε α σ γ}
    {post : γ → σ → List (Entry ε α) → Prop} (hm : Triple P m mid exits)
    (hf : ∀ b, Triple (mid b) (f b) post exits) : Triple P (m >>= f) post exits := by
  intro w hw
  have hrun := hm w hw
  have hbind : (m >>= f) w = Program.bind m f w := rfl
  rw [hbind, Program.bind]
  split at hrun
  · exact hf _ _ hrun
  · exact hrun

/-- **Catching failures.** -/
theorem catchFailure {R : σ → List (Entry ε α) → Prop} {handler : Program ε α σ β}
    (hm : Triple P m post fun e s t => if e = .failed then R s t else exits e s t)
    (hhandler : Triple R handler post exits) :
    Triple P (Program.catchFailure m handler) post exits := by
  intro w hw
  have hrun := hm w hw
  unfold Program.catchFailure
  split at hrun
  · rename_i b w' heq
    rw [heq]
    exact hrun
  · rename_i e w' heq
    rw [heq]
    cases e with
    | failed => exact hhandler w' hrun
    | interrupted => exact hrun
    | paused => exact hrun

/-- **Ensuring.** What comes after the program holds however it ends, unless it stays
suspended. -/
theorem ensure {mid : β → σ → List (Entry ε α) → Prop}
    {midExits : Exit → σ → List (Entry ε α) → Prop} {final : Program ε α σ PUnit}
    (hm : Triple P m mid midExits)
    (hreturn : ∀ b, Triple (mid b) final (fun _ => post b) exits)
    (hexit : ∀ e, e ≠ .paused → Triple (midExits e) final (fun _ => exits e) exits)
    (hpaused : ∀ s t, midExits .paused s t → exits .paused s t) :
    Triple P (Program.ensure m final) post exits := by
  intro w hw
  have hrun := hm w hw
  unfold Program.ensure
  split at hrun
  · rename_i b w' heq
    have hfinal := hreturn b w' hrun
    rw [heq]
    dsimp only
    split at hfinal <;> rename_i heq' <;> rw [heq'] <;> exact hfinal
  · rename_i e w' heq
    rw [heq]
    cases e with
    | paused => exact hpaused _ _ hrun
    | failed =>
      have hfinal := hexit .failed (by decide) w' hrun
      dsimp only
      split at hfinal <;> rename_i heq' <;> rw [heq'] <;> exact hfinal
    | interrupted =>
      have hfinal := hexit .interrupted (by decide) w' hrun
      dsimp only
      split at hfinal <;> rename_i heq' <;> rw [heq'] <;> exact hfinal

end Triple

end Coroutine
