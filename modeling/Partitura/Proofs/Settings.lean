import Mathlib.Data.List.Induction
import Partitura.Proofs.Settling

/-!
Settings that are applied a second time change nothing.

Each field of a header but one is settled by the settings in force, so a second pass over them
comes to the same values. What no setting is known for is kept aside under its key: the last
value of a key counts, and a key that is there keeps its place.
-/

namespace Partitura

open Text

/-! ### Values under keys -/

section Put

variable {α : Type}

def putAll (pairs m : List (String × α)) : List (String × α) :=
  pairs.foldl (fun m p => put p.1 p.2 m) m

/-- The last value counts. -/
lemma put_put (k : String) (v w : α) (m : List (String × α)) :
    put k w (put k v m) = put k w m := by
  fun_induction put k v m with
  | case1 => simp [put]
  | case2 x rest => simp [put]
  | case3 k' x rest h ih => simp [put, h, ih]

/-- A key that is there keeps its place, so another one may be put before or behind it. -/
lemma put_comm {a k : String} (hne : a ≠ k) (b v : α) {m : List (String × α)}
    (ha : a ∈ m.map (·.1)) : put a b (put k v m) = put k v (put a b m) := by
  induction m with
  | nil => simp at ha
  | cons p rest ih =>
    obtain ⟨k', x⟩ := p
    by_cases hk : k' = k
    · subst hk
      simp [put, hne.symm]
    · by_cases ha' : k' = a
      · subst ha'
        simp [put, hk]
      · have hmem : a ∈ rest.map (·.1) := by simpa [Ne.symm ha'] using ha
        simp [put, hk, ha', ih hmem]

lemma mem_keys_put (a k : String) (v : α) (m : List (String × α)) :
    a ∈ (put k v m).map (·.1) ↔ a = k ∨ a ∈ m.map (·.1) := by
  fun_induction put k v m with
  | case1 => simp
  | case2 x rest => simp
  | case3 k' x rest h ih =>
    simp only [List.map_cons, List.mem_cons, ih]
    tauto

lemma mem_keys_putAll (a : String) (pairs m : List (String × α)) :
    a ∈ (putAll pairs m).map (·.1) ↔ a ∈ pairs.map (·.1) ∨ a ∈ m.map (·.1) := by
  induction pairs generalizing m with
  | nil => simp [putAll]
  | cons p pairs ih =>
    rw [putAll, List.foldl_cons, ← putAll, ih, mem_keys_put]
    simp only [List.map_cons, List.mem_cons]
    tauto

/-- Of two values under a key the first is lost, if nothing else comes to a new place between. -/
lemma put_putAll (k : String) (v w : α) {pairs m : List (String × α)}
    (h : ∀ p ∈ pairs, p.1 ∈ m.map (·.1)) :
    put k w (putAll pairs (put k v m)) = put k w (putAll pairs m) := by
  induction pairs generalizing m with
  | nil => exact put_put k v w m
  | cons p pairs ih =>
    obtain ⟨a, b⟩ := p
    obtain ⟨ha, hpairs⟩ := List.forall_mem_cons.mp h
    simp only [putAll, List.foldl_cons] at ih ⊢
    by_cases hak : a = k
    · rw [hak, put_put]
    · rw [put_comm hak b v ha, ih]
      exact fun q hq => (mem_keys_put _ _ _ _).mpr (.inr (hpairs q hq))

/-- **Putting the same values a second time changes nothing.** -/
lemma putAll_putAll (pairs m : List (String × α)) :
    putAll pairs (putAll pairs m) = putAll pairs m := by
  induction pairs using List.reverseRecOn with
  | nil => rfl
  | append_singleton pairs p ih =>
    have happend (m : List (String × α)) :
        putAll (pairs ++ [p]) m = put p.1 p.2 (putAll pairs m) := by simp [putAll]
    have hkeys : ∀ q ∈ pairs, q.1 ∈ (putAll pairs m).map (·.1) := fun q hq =>
      (mem_keys_putAll _ _ _).mpr (.inl (List.mem_map_of_mem hq))
    calc putAll (pairs ++ [p]) (putAll (pairs ++ [p]) m)
        = put p.1 p.2 (putAll pairs (put p.1 p.2 (putAll pairs m))) := by rw [happend, happend]
      _ = put p.1 p.2 (putAll pairs (putAll pairs m)) := put_putAll _ _ _ hkeys
      _ = putAll (pairs ++ [p]) m := by rw [ih, happend]

end Put

/-! ### Headers -/

attribute [ext] Header

namespace Header

def applyAll (settings : List (String × String)) (h : Header) : Header :=
  settings.foldl (fun h s => (h.apply s.1 s.2).1) h

/-- Every setting sets what is seen of a header to a value of its own, or leaves it alone. -/
def Settles {α : Type} (view : Header → α) : Prop :=
  ∀ key value h h', Settled (view h) (view h') (view (apply key value h).1)
    (view (apply key value h').1)

lemma apply_settles : Settles title ∧ Settles composer ∧ Settles key ∧ Settles tempo ∧
    Settles time := by
  refine ⟨?_, ?_, ?_, ?_, apply_settled⟩
  all_goals
    intro key value h h'
    simp only [apply]
    repeat' split
    all_goals first | exact .refl _ _ | exact .inl rfl

lemma Settles.applyAll {α : Type} {view : Header → α} (hview : Settles view)
    (settings : List (String × String)) (h h' : Header) :
    Settled (view h) (view h') (view (applyAll settings h)) (view (applyAll settings h')) := by
  induction settings generalizing h h' with
  | nil => exact .refl _ _
  | cons s settings ih => exact (hview s.1 s.2 h h').trans (ih _ _)

lemma Settles.idem {α : Type} {view : Header → α} (hview : Settles view)
    (settings : List (String × String)) (h : Header) :
    view (Header.applyAll settings (Header.applyAll settings h)) =
      view (Header.applyAll settings h) :=
  (hview.applyAll settings h _).eq_of_chain.symm

def aside? (s : String × String) : Option (String × String) :=
  if lower s.1 ∈ ["title", "composer", "key", "tempo", "time"] then none
  else some (lower s.1, s.2)

lemma apply_extra (s : String × String) (h : Header) :
    (h.apply s.1 s.2).1.extra = putAll (aside? s).toList h.extra := by
  unfold apply aside?
  grind [putAll]

lemma applyAll_extra (settings : List (String × String)) (h : Header) :
    (applyAll settings h).extra = putAll (settings.filterMap aside?) h.extra := by
  induction settings generalizing h with
  | nil => rfl
  | cons s settings ih =>
    have hcons : applyAll (s :: settings) h = applyAll settings (h.apply s.1 s.2).1 := rfl
    rw [hcons, ih, apply_extra, List.filterMap_cons]
    cases aside? s <;> rfl

/-- **Settings that are applied a second time change nothing.** -/
lemma applyAll_applyAll (settings : List (String × String)) (h : Header) :
    applyAll settings (applyAll settings h) = applyAll settings h := by
  obtain ⟨htitle, hcomposer, hkey, htempo, htime⟩ := apply_settles
  have hextra : (applyAll settings (applyAll settings h)).extra = (applyAll settings h).extra := by
    rw [applyAll_extra, applyAll_extra, putAll_putAll]
  exact Header.ext (htitle.idem settings h) (hcomposer.idem settings h) (htempo.idem settings h)
    (hkey.idem settings h) (htime.idem settings h) hextra

end Header

end Partitura
