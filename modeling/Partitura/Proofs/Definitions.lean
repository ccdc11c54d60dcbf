import Partitura.Proofs.Soundness

/-!
Definitions of instruments.

Setting an attribute looks things up and reports, but depends on nothing else
(`setAttribute_consults`). So a definition makes the same instrument wherever it stands, and
`Defined` says all that carrying it out can do.
-/

namespace Partitura

open Run

variable {P α β γ : Type}

/-! ### Runs that only look things up -/

namespace Library.Like

lemma refl (l : Library) : l.Like l := ⟨rfl, rfl⟩

lemma symm {l l' : Library} (h : l.Like l') : l'.Like l := ⟨h.1.symm, h.2.symm⟩

lemma trans {l l' l'' : Library} (h : l.Like l') (h' : l'.Like l'') : l.Like l'' :=
  ⟨h.1.trans h'.1, h.2.trans h'.2⟩

end Library.Like

/-- A state after some lookups and reports. -/
inductive Context.Consulted (c : Context P) : Context P → Prop
  | intro (library : Library) (reports : List (Report P)) (h : library.Like c.library) :
    Consulted c { c with library, reports }

namespace Context.Consulted

variable {c d e : Context P}

lemma refl (c : Context P) : c.Consulted c := .intro c.library c.reports (.refl _)

lemma trans (h : c.Consulted d) (h' : d.Consulted e) : c.Consulted e := by
  obtain ⟨l, rs, hl⟩ := h
  obtain ⟨l', rs', hl'⟩ := h'
  exact .intro l' rs' (hl'.trans hl)

lemma library (h : c.Consulted d) : d.library.Like c.library := by
  cases h with
  | intro _ _ h => exact h

end Context.Consulted

namespace Run

inductive Agree (Q : α → Prop) (c c' : Context P) :
    Except Fault (α × Context P) → Except Fault (α × Context P) → Prop
  | ok {a : α} {d d' : Context P} (state : c.Consulted d) (state' : c'.Consulted d')
      (result : Q a) : Agree Q c c' (.ok (a, d)) (.ok (a, d'))
  | error (f : Fault) : Agree Q c c' (.error f) (.error f)

/-- A run that looks things up and reports. It gives the same, and something in `Q`, wherever the
library has the same to offer. -/
def Consults (x : Run P α) (Q : α → Prop) : Prop :=
  ∀ c c' : Context P, c.library.Like c'.library → Agree Q c c' (eval x c) (eval x c')

namespace Consults

variable {Q : α → Prop} {R : β → Prop}

lemma pure {a : α} (h : Q a) : Consults (pure a : Run P α) Q :=
  fun c c' _ => .ok (.refl c) (.refl c') h

lemma report (issue : Issue) (t : Option (Token P)) : Consults (report issue t) fun _ => True :=
  fun c c' _ => .ok (.intro c.library _ (.refl _)) (.intro c'.library _ (.refl _)) trivial

lemma lift {x : Except Fault α} (h : ∀ a, x = .ok a → Q a) : Consults (lift x : Run P α) Q := by
  intro c c' _
  cases x with
  | ok a => exact .ok (.refl c) (.refl c') (h a rfl)
  | error f => exact .error f

lemma bind {x : Run P α} {f : α → Run P β} (hx : Consults x Q)
    (hf : ∀ a, Q a → Consults (f a) R) : Consults (x >>= f) R := by
  intro c c' hlike
  have hends := hx c c' hlike
  rw [eval_bind, eval_bind]
  generalize eval x c = r at hends
  generalize eval x c' = r' at hends
  cases hends with
  | error f => exact .error f
  | @ok a d d' hd hd' ha =>
    have hlike' : d.library.Like d'.library := hd.library.trans (hlike.trans hd'.library.symm)
    have hends' := hf a ha d d' hlike'
    simp only [ok_bind]
    generalize eval (f a) d = r at hends'
    generalize eval (f a) d' = r' at hends'
    cases hends' with
    | error f => exact .error f
    | ok he he' hb => exact .ok (hd.trans he) (hd'.trans he') hb

lemma foldlM {xs : List γ} {f : β → γ → Run P β} {b : β} (hb : R b)
    (h : ∀ b x, R b → Consults (f b x) R) : Consults (xs.foldlM f b) R := by
  induction xs generalizing b with
  | nil => exact pure hb
  | cons x xs ih =>
    rw [List.foldlM_cons]
    exact (h b x hb).bind fun _ hb' => ih hb'

end Consults

/-- A search that changes an attribute finds an instrument of the same names. -/
lemma search_consults {i : Instrument} {value : String} {s : Search Instrument}
    (hs : Sought i value s) :
    Consults (search (P := P) s) fun found => ∀ j, found = some j → j.names = i.names := by
  cases hs with
  | plain h => exact .pure fun j hj => (h j hj).1
  | map =>
    intro c c' hlike
    rw [eval_search_kit, eval_search_kit, hlike.1]
    rcases hk : c'.library.kitList with f | kits
    · exact .error f
    · refine .ok (.intro _ c.reports ⟨(hlike.1.trans hk).symm, rfl⟩)
        (.intro _ c'.reports ⟨hk.symm, rfl⟩) fun j hj => ?_
      obtain ⟨kit, -, rfl⟩ := Option.map_eq_some_iff.mp hj
      rfl
  | row hrow =>
    refine .lift ?_
    rintro _ hfound j rfl
    obtain ⟨strings, -, rfl⟩ := map_map_eq_some.mp hfound
    rfl
  | tuning hrow =>
    intro c c' hlike
    rw [eval_search_tuning, eval_search_tuning, hlike.2]
    rcases ht : c'.library.tuningList with f | tunings
    · exact .error f
    · refine .ok (.intro _ c.reports ⟨rfl, (hlike.2.trans ht).symm⟩)
        (.intro _ c'.reports ⟨rfl, ht.symm⟩) fun j hj => ?_
      obtain ⟨tuning, -, rfl⟩ := Option.map_eq_some_iff.mp hj
      rfl

/-- **An attribute is set by what it says and what the library has**, and by nothing else. -/
lemma setAttribute_consults {i : Instrument} {names : String × String × Option String}
    (hi : i.names = names) (a : Attribute P) :
    Consults (setAttribute i a) fun j => j.names = names := by
  obtain ⟨key, value, t⟩ := a
  obtain ⟨s, issue, hs, -, hset⟩ := exists_setBy i key value
  rw [hset]
  refine .bind (search_consults hs) fun found hfound => ?_
  cases found with
  | some j => exact .pure ((hfound j rfl).trans hi)
  | none => exact .bind (.report issue _) fun _ _ => .pure hi

/-! ### Definitions -/

def make (group : Option String) (d : Definition P) : Run P Instrument :=
  d.attributes.foldlM setAttribute { id := d.id.value, label := d.label, group }

lemma make_consults (group : Option String) (d : Definition P) :
    Consults (make group d) fun i => i.names = (d.id.value, d.label, group) :=
  .foldlM rfl fun _ a hi => setAttribute_consults hi a

end Run

/-- What a definition makes of an instrument, by itself, with the maps and tunings of a library. -/
def Definition.Makes (l : Library) (group : Option String) (d : Definition P) (i : Instrument) :
    Prop :=
  ∃ e : Context P, eval (make group d) (.start {} l) = .ok (i, e)

lemma Definition.Makes.names {l : Library} {group : Option String} {d : Definition P}
    {i : Instrument} (h : d.Makes l group i) : i.names = (d.id.value, d.label, group) := by
  obtain ⟨e, he⟩ := h
  have hends := make_consults group d (.start {} l) (.start {} l) (.refl l)
  rw [he] at hends
  cases hends with
  | ok _ _ hi => exact hi

def InstrumentBlock.definitions (group : Option String) (b : InstrumentBlock P) :
    List (Option String × Definition P) :=
  (b.body.map fun d => (group, d)).toList

def Declaration.definitions : Declaration P → List (Option String × Definition P)
  | .instrument b => b.definitions none
  | .group b => (b.members.getD []).flatMap fun p => p.1.definitions (some b.label)
  | _ => []

namespace Run

/-- **What a definition can do**: nothing, if it is incomplete or there is an instrument of this
name; or else define the instrument that it makes, and give it no cursors. -/
inductive Defined (l : Library) (group : Option String) (b : InstrumentBlock P) (c : Context P) :
    Option Instrument → Context P → Prop
  | incomplete {e : Context P} (hbody : b.body = none) (he : c.Consulted e) :
    Defined l group b c none e
  | repeated {d : Definition P} {e : Context P} (hbody : b.body = some d)
      (hold : c.defines d.id.value = true) (he : c.Consulted e) : Defined l group b c none e
  | fresh {d : Definition P} {i : Instrument} {e : Context P} (hbody : b.body = some d)
      (hnew : c.defines d.id.value = false) (hi : d.Makes l group i) (he : c.Consulted e) :
    Defined l group b c (some i) { e with
      instruments := e.instruments ++ [i]
      cursors := e.cursors.filter (·.1.instrument ≠ d.id.value) }

lemma defineInstrument_cases {l : Library} {group : Option String} {b : InstrumentBlock P}
    {c e : Context P} {r : Option Instrument} (hlike : c.library.Like l)
    (h : eval (defineInstrument group b) c = .ok (r, e)) : Defined l group b c r e := by
  unfold defineInstrument at h
  split at h
  · rename_i hbody
    obtain ⟨rfl, rfl⟩ : none = r ∧ _ = e := by simpa using h
    exact .incomplete hbody (.intro c.library _ (.refl _))
  · rename_i d hbody
    obtain ⟨⟨i, c₁⟩, hmake, h⟩ := bind_eq_ok.mp ((eval_bind _ _ _).symm.trans h)
    have hagree := make_consults group d c (.start {} l) hlike
    rw [make, hmake] at hagree
    generalize hstart : eval (d.attributes.foldlM setAttribute _) (.start {} l) = r' at hagree
    cases hagree with
    | ok hc₁ _ hi =>
      have hdefines : c₁.defines d.id.value = c.defines d.id.value := by
        cases hc₁
        rfl
      simp only [eval_bind, eval_get, ok_bind, hdefines] at h
      split at h
      · rename_i hold
        obtain ⟨rfl, rfl⟩ : none = r ∧ _ = e := by simpa using h
        exact .repeated hbody hold (hc₁.trans (.intro c₁.library _ (.refl _)))
      · rename_i hnew
        obtain ⟨rfl, rfl⟩ : some i = r ∧ _ = e := by
          simpa only [register, eval_bind, eval_modify, ok_bind, eval_pure, Except.ok.injEq,
            Prod.mk.injEq] using h
        exact .fresh hbody (by simpa using hnew) ⟨_, hstart⟩ hc₁

end Run

end Partitura
