import Mathlib.Tactic.Common
import Partitura.Compile.Context

/-!
Runs, seen as functions on states.

`eval` forgets what a failed run leaves behind: its state and the place it stood at. What is
left is a state passed on until a fault, and evaluating follows the steps of a run. `Keeps` is
the judgement used for invariants: from a state that satisfies `I` a run either succeeds, with
`I` kept and a result in `Q`, or fails with a fault in `F`.
-/

namespace Partitura

variable {P α β γ : Type}

/-! ### Results that may be faults -/

@[simp] lemma ok_bind (a : α) (f : α → Except Fault β) : (.ok a >>= f) = f a := rfl

@[simp] lemma error_bind (e : Fault) (f : α → Except Fault β) : (.error e >>= f) = .error e := rfl

@[simp] lemma ok_map (g : α → β) (a : α) : (g <$> .ok a : Except Fault β) = .ok (g a) := rfl

@[simp] lemma error_map (g : α → β) (e : Fault) :
    (g <$> .error e : Except Fault β) = .error e := rfl

lemma bind_eq_ok {x : Except Fault α} {f : α → Except Fault β} {b : β} :
    x >>= f = .ok b ↔ ∃ a, x = .ok a ∧ f a = .ok b := by
  cases x <;> simp

lemma map_eq_error (g : α → β) {x : Except Fault α} {f : Fault} :
    g <$> x = .error f ↔ x = .error f := by
  cases x <;> simp

namespace Run

/-! ### Evaluation -/

/-- The result and the state of a run, or its fault. -/
def eval (x : Run P α) (c : Context P) : Except Fault (α × Context P) :=
  match x.run c with
  | .ok a d => .ok (a, d)
  | .error s _ => .error s.fault

@[simp] lemma eval_pure (a : α) (c : Context P) : eval (pure a) c = .ok (a, c) := rfl

@[simp] lemma eval_get (c : Context P) : eval get c = .ok (c, c) := rfl

@[simp] lemma eval_modify (f : Context P → Context P) (c : Context P) :
    eval (modify f) c = .ok ((), f c) := rfl

@[simp] lemma eval_throw (s : Stop) (c : Context P) :
    eval (throw s : Run P α) c = .error s.fault := rfl

@[simp] lemma eval_bind (x : Run P α) (f : α → Run P β) (c : Context P) :
    eval (x >>= f) c = eval x c >>= fun p => eval (f p.1) p.2 := by
  unfold eval
  rw [EStateM.run_bind]
  cases x.run c <;> rfl

@[simp] lemma eval_map (g : α → β) (x : Run P α) (c : Context P) :
    eval (g <$> x) c = (fun p => (g p.1, p.2)) <$> eval x c := by
  rw [← bind_pure_comp, eval_bind]
  cases eval x c <;> rfl

@[simp] lemma eval_discard (x : Run P α) (c : Context P) :
    eval (discard x) c = (fun p => ((), p.2)) <$> eval x c :=
  eval_map (fun _ => ()) x c

@[simp] lemma eval_lift (x : Except Fault α) (c : Context P) :
    eval (lift x) c = (·, c) <$> x := by
  cases x <;> rfl

/-- Where a run stood when it failed is forgotten. -/
@[simp] lemma eval_placed (place : Place) (x : Run P α) (c : Context P) :
    eval (placed place x) c = eval x c := by
  unfold eval placed
  rw [EStateM.run_adaptExcept]
  cases x.run c <;> rfl

lemma eval_lift_eq_ok {x : Except Fault α} {c d : Context P} {a : α} :
    eval (lift x) c = .ok (a, d) ↔ x = .ok a ∧ c = d := by
  rw [eval_lift]
  cases x <;> simp

lemma eval_discard_eq_ok {x : Run P α} {c d : Context P} {u : PUnit}
    (h : eval (discard x) c = .ok (u, d)) : ∃ a, eval x c = .ok (a, d) := by
  rw [eval_discard] at h
  rcases hx : eval x c with f | ⟨a, e⟩
  · simp [hx] at h
  · obtain rfl : e = d := by simpa [hx] using h
    exact ⟨a, rfl⟩

lemma eval_forM_cons (x : γ) (xs : List γ) (f : γ → Run P PUnit) (c : Context P) :
    eval ((x :: xs).forM f) c = eval (f x) c >>= fun p => eval (xs.forM f) p.2 := by
  show eval (f x >>= fun _ => xs.forM f) c = _
  rw [eval_bind]

lemma eval_eq_ok {x : Run P α} {c d : Context P} {a : α} :
    eval x c = .ok (a, d) ↔ x.run c = .ok a d := by
  unfold eval
  cases x.run c <;> simp

/-- Whether a run ends well, with a result and a state that pass a check. -/
def passes (x : Run P α) (c : Context P) (check : α → Context P → Bool) : Bool :=
  match x.run c with
  | .ok a d => check a d
  | .error _ _ => false

lemma exists_of_passes {x : Run P α} {c : Context P} {check : α → Context P → Bool}
    (h : passes x c check = true) : ∃ a d, x.run c = .ok a d ∧ check a d = true := by
  unfold passes at h
  split at h
  · rename_i a d hrun
    exact ⟨a, d, hrun, h⟩
  · cases h

/-! ### Places -/

lemma placed_bind (place : Place) (x : Run P α) (f : α → Run P β) :
    placed place (x >>= f) = placed place x >>= fun a => placed place (f a) := by
  funext c
  simp only [placed, EStateM.adaptExcept, bind, EStateM.bind]
  cases x c <;> rfl

lemma placed_placed (place place' : Place) (x : Run P α) :
    placed place (placed place' x) = placed place x := by
  funext c
  simp only [placed, EStateM.adaptExcept]
  cases x c <;> rfl

lemma placed_congr (place : Place) {x y : Run P α} {c : Context P} (h : x.run c = y.run c) :
    (placed place x).run c = (placed place y).run c := by
  rw [placed, placed, EStateM.run_adaptExcept, EStateM.run_adaptExcept, h]

lemma run_bind_congr {x : Run P α} {f g : α → Run P β} {c : Context P}
    (h : ∀ a d, x.run c = .ok a d → (f a).run d = (g a).run d) :
    (x >>= f).run c = (x >>= g).run c := by
  rw [EStateM.run_bind, EStateM.run_bind]
  cases hx : x.run c with
  | ok a d => exact h a d hx
  | error s d => rfl

/-! ### Invariants -/

/-- How a run may end: in a state that satisfies `I` with a result in `Q`, or with a fault
in `F`. -/
inductive Ends (I : Context P → Prop) (F : Fault → Prop) (Q : α → Prop) :
    Except Fault (α × Context P) → Prop
  | ok {a : α} {d : Context P} (state : I d) (result : Q a) : Ends I F Q (.ok (a, d))
  | error {f : Fault} (fault : F f) : Ends I F Q (.error f)

/-- From a state that satisfies `I` the run ends well. -/
def Keeps (I : Context P → Prop) (F : Fault → Prop) (x : Run P α) (Q : α → Prop) : Prop :=
  ∀ c, I c → Ends I F Q (eval x c)

variable {I J : Context P → Prop} {F : Fault → Prop} {Q : α → Prop} {R : β → Prop}

lemma Ends.imp {r : Except Fault (α × Context P)} {Q' : α → Prop} (h : Ends I F Q r)
    (hI : ∀ c, I c → J c) (hQ : ∀ a, Q a → Q' a) : Ends J F Q' r := by
  cases h with
  | ok state result => exact .ok (hI _ state) (hQ _ result)
  | error fault => exact .error fault

lemma Ends.bind {r : Except Fault (α × Context P)}
    {f : α × Context P → Except Fault (β × Context P)} (h : Ends I F Q r)
    (hf : ∀ a d, I d → Q a → Ends I F R (f (a, d))) :
    Ends I F R (r >>= f) := by
  cases h with
  | ok state result => exact hf _ _ state result
  | error fault => exact .error fault

namespace Keeps

lemma imp {x : Run P α} {Q' : α → Prop} (h : Keeps I F x Q) (hQ : ∀ a, Q a → Q' a) :
    Keeps I F x Q' :=
  fun c hc => (h c hc).imp (fun _ => id) hQ

/-- A run that keeps `I` and ends well ends in a state that satisfies it. -/
lemma state_of_ok {x : Run P α} (h : Keeps I F x Q) {c d : Context P} {a : α} (hc : I c)
    (hx : eval x c = .ok (a, d)) : I d := by
  have hends := h c hc
  rw [hx] at hends
  cases hends with
  | ok hd _ => exact hd

lemma pure {a : α} (h : Q a) : Keeps I F (pure a) Q := fun _ hc => .ok hc h

lemma bind {x : Run P α} {f : α → Run P β} (hx : Keeps I F x Q)
    (hf : ∀ a, Q a → Keeps I F (f a) R) : Keeps I F (x >>= f) R := by
  intro c hc
  rw [eval_bind]
  exact (hx c hc).bind fun a d hd ha => hf a ha d hd

/-- What is known of the state that is looked at stays known. -/
lemma get_bind {f : Context P → Run P α} (h : ∀ c, I c → Keeps I F (f c) Q) :
    Keeps I F (get >>= f) Q := by
  intro c hc
  rw [eval_bind, eval_get]
  exact h c hc c hc

lemma modify {f : Context P → Context P} (h : ∀ c, I c → I (f c)) :
    Keeps I F (modify f) (fun _ => True) := fun c hc => .ok (h c hc) trivial

lemma throw {s : Stop} (h : F s.fault) : Keeps I F (throw s : Run P α) Q :=
  fun _ _ => .error h

lemma lift {x : Except Fault α} (hok : ∀ a, x = .ok a → Q a) (herr : ∀ f, x = .error f → F f) :
    Keeps I F (lift x) Q := by
  intro c hc
  cases x with
  | error f => exact .error (herr f rfl)
  | ok a => exact .ok hc (hok a rfl)

lemma placed {x : Run P α} {place : Place} (h : Keeps I F x Q) : Keeps I F (placed place x) Q := by
  intro c hc
  rw [eval_placed]
  exact h c hc

lemma discard {x : Run P α} (h : Keeps I F x Q) : Keeps I F (discard x) (fun _ => True) := by
  intro c hc
  have hx := h c hc
  rw [eval_discard]
  generalize eval x c = r at hx
  cases hx with
  | ok state _ => exact .ok state trivial
  | error fault => exact .error fault

lemma forM {xs : List γ} {f : γ → Run P PUnit} (h : ∀ x ∈ xs, Keeps I F (f x) (fun _ => True)) :
    Keeps I F (xs.forM f) (fun _ => True) := by
  induction xs with
  | nil => exact pure trivial
  | cons x xs ih =>
    show Keeps I F (f x >>= fun _ => xs.forM f) _
    exact (h x (by simp)).bind fun _ _ => ih fun y hy => h y (by simp [hy])

lemma foldlM {xs : List γ} {f : β → γ → Run P β} {b : β} (hb : R b)
    (h : ∀ b, R b → ∀ x ∈ xs, Keeps I F (f b x) R) : Keeps I F (xs.foldlM f b) R := by
  induction xs generalizing b with
  | nil => exact pure hb
  | cons x xs ih =>
    rw [List.foldlM_cons]
    exact (h b hb x (by simp)).bind fun b' hb' =>
      ih hb' fun b hb y hy => h b hb y (by simp [hy])

end Keeps

end Run

end Partitura
