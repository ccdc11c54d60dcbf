import Partitura.Library
import Partitura.Proofs.History
import Partitura.Proofs.Reading

/-!
Loading entries from documents, whatever makes a document one of them.

Kits and tunings are loaded in the same way. A document is read as an entry or passed over, an entry
is checked, and one that passes takes its name from an earlier one. So under each name the last
entry that passed stays, and the first check that fails decides how loading fails.
-/

namespace Partitura

open Yaml

variable {α : Type}

/-- A member that is `bad`, behind members that are all `good`. -/
def FirstOf (good bad : α → Prop) (xs : List α) : Prop :=
  ∃ before x after, xs = before ++ x :: after ∧ (∀ y ∈ before, good y) ∧ bad x

lemma not_firstOf_nil {good bad : α → Prop} : ¬ FirstOf good bad [] := by
  rintro ⟨before, x, after, h, -⟩
  simp at h

lemma firstOf_cons {good bad : α → Prop} {x : α} {xs : List α} :
    FirstOf good bad (x :: xs) ↔ bad x ∨ good x ∧ FirstOf good bad xs := by
  constructor
  · rintro ⟨_ | ⟨y, before⟩, z, after, h, hgood, hbad⟩
    · obtain ⟨rfl, -⟩ := List.cons.inj h
      exact .inl hbad
    · obtain ⟨rfl, rfl⟩ := List.cons.inj h
      obtain ⟨hx, hbefore⟩ := List.forall_mem_cons.mp hgood
      exact .inr ⟨hx, before, z, after, rfl, hbefore, hbad⟩
  · rintro (hbad | ⟨hx, before, z, after, rfl, hbefore, hbad⟩)
    · exact ⟨[], x, xs, rfl, by simp, hbad⟩
    · exact ⟨x :: before, z, after, rfl, List.forall_mem_cons.mpr ⟨hx, hbefore⟩, hbad⟩

/-- The last of some entries with a name, or else the one that is always there, if it is called
so. -/
def lastNamed (nameOf : α → String) (always : α) (entries : List α) (name : String) : Option α :=
  (entries.filter (nameOf · = name)).getLast?.or
    (if nameOf always = name then some always else none)

def shelve (nameOf : α → String) (entries : List α) (m : List (String × α)) : List (String × α) :=
  entries.foldl (fun m e => put (nameOf e) e m) m

lemma get?_shelve (nameOf : α → String) (entries : List α) (m : List (String × α))
    (name : String) : get? name (shelve nameOf entries m) =
      (entries.filter (nameOf · = name)).getLast?.or (get? name m) := by
  induction entries using List.reverseRecOn with
  | nil => rfl
  | append_singleton entries e ih =>
    rw [shelve, List.foldl_append, List.foldl_cons, List.foldl_nil, ← shelve, get?_put, ih,
      List.filter_append]
    by_cases h : nameOf e = name
    · simp [h]
    · simp [h, Ne.symm h]

/-! ### Any reader and any check -/

/-- What to load, how to check it, and what is always there. -/
structure Loader (α : Type) where
  ofNode? : Node → Option α
  check : α → Except Fault Bool
  nameOf : α → String
  always : α

namespace Loader

/-- Check an entry, and keep it if it passes. -/
def add (r : Loader α) (m : List (String × α)) (a : α) : Except Fault (List (String × α)) := do
  if ← r.check a then return put (r.nameOf a) a m else return m

def load (r : Loader α) (docs : List (Except Fault Node)) : Except Fault (List (String × α)) :=
  docs.foldlM (fun m doc => do
    match r.ofNode? (← doc) with
    | some a => r.add m a
    | none => return m) [(r.nameOf r.always, r.always)]

def entries (r : Loader α) (docs : List Node) : List α := docs.filterMap r.ofNode?

def kits : Loader Kit := ⟨Kit.ofNode?, fun _ => .ok true, Kit.name, .general⟩

def tunings : Loader Tuning :=
  ⟨Tuning.ofNode?, fun t => allPitches t.strings, Tuning.name, .guitar⟩

lemma load_kits (docs : List (Except Fault Node)) : kits.load docs = loadKits docs := by
  refine congrArg (docs.foldlM · _) (funext₂ fun m doc => congrArg (doc >>= ·) (funext fun n => ?_))
  cases h : Kit.ofNode? n <;> simp [kits, add, h]

lemma load_tunings (docs : List (Except Fault Node)) : tunings.load docs = loadTunings docs := by
  refine congrArg (docs.foldlM · _) (funext₂ fun m doc => congrArg (doc >>= ·) (funext fun n => ?_))
  cases h : Tuning.ofNode? n <;> simp [tunings, add, h]

variable (r : Loader α)

/-- Only an entry that passes is added. -/
lemma forall_mem_add {C : α → Prop} (hchecked : ∀ a, r.check a = .ok true → C a) {a : α}
    {m m' : List (String × α)} (hm : ∀ p ∈ m, C p.2) (h : r.add m a = .ok m') :
    ∀ p ∈ m', C p.2 := by
  obtain ⟨passes, hpasses, h⟩ := bind_eq_ok.mp h
  cases passes with
  | false => cases h; exact hm
  | true =>
    cases h
    intro p hp
    rcases mem_put hp with hp | hp
    · rw [hp]; exact hchecked a hpasses
    · exact hm p hp

/-- All that was loaded was checked, but for the entry that is always there. -/
lemma forall_mem_load {C : α → Prop} (halways : C r.always)
    (hchecked : ∀ a, r.check a = .ok true → C a) {docs : List (Except Fault Node)}
    {m : List (String × α)} (h : r.load docs = .ok m) : ∀ p ∈ m, C p.2 := by
  have hloaded : ∀ p ∈ [(r.nameOf r.always, r.always)], C p.2 := by
    simpa only [List.forall_mem_singleton] using halways
  unfold load at h
  generalize [(r.nameOf r.always, r.always)] = loaded at h hloaded
  induction docs generalizing loaded with
  | nil => cases h; exact hloaded
  | cons doc docs ih =>
    rw [List.foldlM_cons] at h
    obtain ⟨next, hnext, h⟩ := bind_eq_ok.mp h
    refine ih next h ?_
    obtain ⟨node, -, hnext⟩ := bind_eq_ok.mp hnext
    split at hnext
    · exact r.forall_mem_add hchecked hloaded hnext
    · cases hnext; exact hloaded

/-- A document that is no entry is passed over. -/
lemma load_ok (docs : List Node) :
    r.load (docs.map .ok) = (r.entries docs).foldlM r.add [(r.nameOf r.always, r.always)] := by
  unfold load entries
  generalize [(r.nameOf r.always, r.always)] = m
  induction docs generalizing m with
  | nil => rfl
  | cons doc docs ih =>
    rw [List.map_cons, List.foldlM_cons, ok_bind]
    cases hdoc : r.ofNode? doc with
    | none => simpa [hdoc] using ih m
    | some a =>
      rw [List.filterMap_cons_some hdoc, List.foldlM_cons]
      exact congrArg _ (funext ih)

/-- The first entry whose check fails decides how loading fails, whatever was kept before. -/
lemma load_eq_error (docs : List Node) (f : Fault) :
    r.load (docs.map .ok) = .error f ↔
      FirstOf (fun a => ∀ g, r.check a ≠ .error g) (r.check · = .error f) (r.entries docs) := by
  rw [load_ok]
  -- what is kept so far has no say in whether a check fails
  generalize [(r.nameOf r.always, r.always)] = m
  induction r.entries docs generalizing m with
  | nil => simp [not_firstOf_nil, pure, Except.pure]
  | cons a entries ih =>
    rw [List.foldlM_cons, firstOf_cons]
    rcases ha : r.check a with g | _ | _
    · simp [add, ha]
    · simp [add, ha, ih, pure, Except.pure]
    · simp [add, ha, ih, pure, Except.pure]

/-- Where no check fails, the entries that pass are kept. -/
lemma foldlM_add_eq_ok {entries : List α} (h : ∀ a ∈ entries, ∀ f, r.check a ≠ .error f)
    {C : α → Prop} [DecidablePred C] (hC : ∀ a, C a ↔ r.check a = .ok true)
    (m : List (String × α)) :
    entries.foldlM r.add m = .ok (shelve r.nameOf (entries.filter C) m) := by
  induction entries generalizing m with
  | nil => rfl
  | cons a entries ih =>
    obtain ⟨ha, hentries⟩ := List.forall_mem_cons.mp h
    rw [List.foldlM_cons]
    rcases hcheck : r.check a with f | _ | _
    · exact absurd hcheck (ha f)
    · simpa [add, hcheck, hC, pure, Except.pure] using ih hentries m
    · simpa [add, hcheck, hC, shelve, pure, Except.pure] using ih hentries (put (r.nameOf a) a m)

/-- Where no check fails, the last entry of each name that passed is found. -/
lemma get?_load (docs : List Node) (h : ∀ a ∈ r.entries docs, ∀ f, r.check a ≠ .error f)
    {C : α → Prop} [DecidablePred C] (hC : ∀ a, C a ↔ r.check a = .ok true) (name : String) :
    get? name <$> r.load (docs.map .ok) =
      .ok (lastNamed r.nameOf r.always ((r.entries docs).filter C) name) := by
  rw [load_ok, r.foldlM_add_eq_ok h hC, ok_map, get?_shelve]
  rfl

end Loader

end Partitura
