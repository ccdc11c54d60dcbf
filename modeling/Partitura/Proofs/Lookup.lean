import Partitura.Library.Folder
import Partitura.Proofs.Faults

/-!
Looking up kits and tunings.

Kits are loaded without a check. Tunings are checked string by string, and this check can fail. Then
nothing is loaded at all, so one tuning decides over every lookup. What a lookup finds does not
depend on those before it, since what is kept is what the documents give (`Holds`).
-/

namespace Partitura

open Yaml

/-! ### Kits -/

def kitsIn (docs : List Node) : List Kit := docs.filterMap Kit.ofNode?

/-- Every document that is a kit is kept. -/
lemma get?_loadKits (docs : List Node) (name : String) :
    get? name <$> loadKits (docs.map .ok) =
      .ok (lastNamed Kit.name Kit.general (kitsIn docs) name) := by
  have h := Loader.kits.get?_load docs (C := fun _ => True) (by simp [Loader.kits])
    (by simp [Loader.kits]) name
  rw [Loader.load_kits] at h
  simpa [Loader.kits, Loader.entries, kitsIn] using h

/-! ### Tunings -/

def IsPitch (s : String) : Prop := ∃ p, Pitch.read s Pitch.defaultOctave = .ok (some p)

instance (s : String) : Decidable (IsPitch s) :=
  match h : Pitch.read s Pitch.defaultOctave with
  | .ok (some p) => .isTrue ⟨p, h⟩
  | .ok none => .isFalse fun ⟨p, hp⟩ => by simp [h] at hp
  | .error f => .isFalse fun ⟨p, hp⟩ => by simp [h] at hp

namespace Tuning

def Pitched (t : Tuning) : Prop := ∀ s ∈ t.strings, IsPitch s

instance (t : Tuning) : Decidable t.Pitched := inferInstanceAs (Decidable (∀ s ∈ t.strings, _))

/-- Checking the strings of a tuning fails: behind pitches stands a text that cannot be read. -/
def Breaks (t : Tuning) (f : Fault) : Prop :=
  FirstOf IsPitch (fun s => Pitch.read s Pitch.defaultOctave = .error f) t.strings

end Tuning

lemma allPitches_eq_true {ss : List String} : allPitches ss = .ok true ↔ ∀ s ∈ ss, IsPitch s := by
  induction ss with
  | nil => simp [allPitches]
  | cons s ss ih =>
    rcases hs : Pitch.read s Pitch.defaultOctave with f | _ | p
    · simp [allPitches, hs, IsPitch]
    · simp [allPitches, hs, IsPitch, pure, Except.pure]
    · have hp : IsPitch s := ⟨p, hs⟩
      simp [allPitches, hs, hp, ih]

lemma allPitches_eq_error {ss : List String} {f : Fault} : allPitches ss = .error f ↔
    FirstOf IsPitch (fun s => Pitch.read s Pitch.defaultOctave = .error f) ss := by
  induction ss with
  | nil => simp [allPitches, not_firstOf_nil]
  | cons s ss ih =>
    rw [firstOf_cons]
    rcases hs : Pitch.read s Pitch.defaultOctave with f | _ | p
    · simp [allPitches, hs, IsPitch]
    · simp [allPitches, hs, IsPitch, pure, Except.pure]
    · have hp : IsPitch s := ⟨p, hs⟩
      simp [allPitches, hs, hp, ih]

def tuningsIn (docs : List Node) : List Tuning := docs.filterMap Tuning.ofNode?

lemma Tuning.breaks_iff {t : Tuning} {f : Fault} :
    t.Breaks f ↔ Loader.tunings.check t = .error f := allPitches_eq_error.symm

lemma Tuning.pitched_iff (t : Tuning) : t.Pitched ↔ Loader.tunings.check t = .ok true :=
  allPitches_eq_true.symm

/-- The first tuning that cannot be checked decides how loading fails. -/
lemma loadTunings_eq_error (docs : List Node) (f : Fault) :
    loadTunings (docs.map .ok) = .error f ↔
      FirstOf (fun t : Tuning => ∀ g, ¬ t.Breaks g) (·.Breaks f) (tuningsIn docs) := by
  simp only [Tuning.breaks_iff, ← Loader.load_tunings]
  exact Loader.tunings.load_eq_error docs f

/-- Where all can be checked, those of pitches are kept. -/
lemma get?_loadTunings {docs : List Node} (h : ∀ t ∈ tuningsIn docs, ∀ f, ¬ t.Breaks f)
    (name : String) : get? name <$> loadTunings (docs.map .ok) =
      .ok (lastNamed Tuning.name Tuning.guitar ((tuningsIn docs).filter (·.Pitched)) name) := by
  simp only [Tuning.breaks_iff] at h
  rw [← Loader.load_tunings]
  exact Loader.tunings.get?_load docs h Tuning.pitched_iff name

/-! ### Lookups -/

def Shelf.ofNodes (kits tunings : List Node) : Shelf := ⟨kits.map .ok, tunings.map .ok⟩

lemma Shelf.append_ofNodes (kits tunings kits' tunings' : List Node) :
    (ofNodes kits tunings).append (ofNodes kits' tunings') =
      ofNodes (kits ++ kits') (tunings ++ tunings') := by
  simp [append, ofNodes]

namespace Library

/-- The libraries that one comes to from one of which nothing is loaded, whatever is looked up and
in whatever order. -/
inductive Reached (s : Shelf) : Library → Prop
  | unloaded : Reached s { shelf := s }
  | kit {l l' : Library} {name : String} {k : Option Kit} (h : Reached s l)
      (hkit : l.kit? name = .ok (k, l')) : Reached s l'
  | tuning {l l' : Library} {name : String} {t : Option Tuning} (h : Reached s l)
      (htuning : l.tuning? name = .ok (t, l')) : Reached s l'
  | kitNames {l l' : Library} {names : List String} (h : Reached s l)
      (hnames : l.kitNames = .ok (names, l')) : Reached s l'
  | tuningNames {l l' : Library} {names : List String} (h : Reached s l)
      (hnames : l.tuningNames = .ok (names, l')) : Reached s l'
  | clear {l : Library} (h : Reached s l) : Reached s l.clear

/-- A lookup searches what the documents give. -/
structure Holds (s : Shelf) (l : Library) : Prop where
  shelf : l.shelf = s
  kits : l.kitList = loadKits s.kits
  tunings : l.tuningList = Tunings.load s.tunings

section Reached

variable {s : Shelf} {l l' : Library}

lemma allKits_eq (l : Library) :
    l.allKits = (fun kits => (kits, { l with kits := some kits })) <$> l.kitList := by
  obtain ⟨shelf, _ | kits, tunings⟩ := l
  · cases h : loadKits shelf.kits <;> simp [allKits, kitList, h, pure, Except.pure]
  · simp [allKits, kitList]

lemma allTunings_eq (l : Library) :
    l.allTunings =
      (fun tunings => (tunings.list, { l with tunings := some tunings })) <$> l.tuningList := by
  obtain ⟨shelf, kits, _ | tunings⟩ := l
  · cases h : Tunings.load shelf.tunings <;> simp [allTunings, tuningList, h, pure, Except.pure]
  · simp [allTunings, tuningList]

/-- Loading kits changes nothing for a lookup. -/
lemma Holds.allKits (h : Holds s l) {kits : List (String × Kit)}
    (hkits : l.allKits = .ok (kits, l')) : Holds s l' := by
  rw [allKits_eq] at hkits
  cases hlist : l.kitList with
  | error f => simp [hlist] at hkits
  | ok loaded =>
    obtain ⟨-, rfl⟩ : loaded = kits ∧ _ = l' := by simpa [hlist] using hkits
    exact ⟨h.shelf, hlist.symm.trans h.kits, h.tunings⟩

/-- Loading tunings changes nothing for a lookup. -/
lemma Holds.allTunings (h : Holds s l) {tunings : List (String × Tuning)}
    (htunings : l.allTunings = .ok (tunings, l')) : Holds s l' := by
  rw [allTunings_eq] at htunings
  cases hlist : l.tuningList with
  | error f => simp [hlist] at htunings
  | ok loaded =>
    obtain ⟨-, rfl⟩ : loaded.list = tunings ∧ _ = l' := by simpa [hlist] using htunings
    exact ⟨h.shelf, h.kits, hlist.symm.trans h.tunings⟩

lemma Reached.holds (h : Reached s l) : Holds s l := by
  induction h with
  | unloaded => exact ⟨rfl, rfl, rfl⟩
  | kit _ hkit ih =>
    obtain ⟨⟨kits, l'⟩, hkits, h⟩ := bind_eq_ok.mp hkit
    cases h
    exact ih.allKits hkits
  | tuning _ htuning ih =>
    obtain ⟨⟨tunings, l'⟩, htunings, h⟩ := bind_eq_ok.mp htuning
    cases h
    exact ih.allTunings htunings
  | kitNames _ hnames ih =>
    obtain ⟨⟨kits, l'⟩, hkits, h⟩ := bind_eq_ok.mp hnames
    cases h
    exact ih.allKits hkits
  | tuningNames _ hnames ih =>
    obtain ⟨⟨tunings, l'⟩, htunings, h⟩ := bind_eq_ok.mp hnames
    cases h
    exact ih.allTunings htunings
  | clear _ ih => exact ⟨ih.shelf, ih.shelf ▸ rfl, ih.shelf ▸ rfl⟩

end Reached

lemma tunings_load (docs : List (Except Fault Node)) :
    Tunings.list <$> Tunings.load docs = loadTunings docs := by
  unfold Tunings.load
  split <;> simp_all

/-- What is found of a kit, or the fault of the lookup. -/
lemma Holds.kit? {s : Shelf} {l : Library} (h : Holds s l) (name : String) :
    Prod.fst <$> l.kit? name = get? name <$> loadKits s.kits := by
  rw [kit?_eq, h.kits]
  cases loadKits s.kits <;> rfl

/-- What is found of a tuning, or the fault of the lookup. -/
lemma Holds.tuning? {s : Shelf} {l : Library} (h : Holds s l) (name : String) :
    Prod.fst <$> l.tuning? name = get? name <$> loadTunings s.tunings := by
  rw [tuning?_eq, h.tunings, ← tunings_load]
  cases Tunings.load s.tunings <;> rfl

end Library

/-- A check fails only at a numeral that is too long, or at an accidental spelled with a long s. -/
lemma Tuning.Breaks.fault {t : Tuning} {f : Fault} (h : t.Breaks f) :
    ∃ s ∈ t.strings, f.IsTooLong ∨ f.IsLongS s := by
  obtain ⟨before, s, after, hstrings, -, hs⟩ := h
  refine ⟨s, by simp [hstrings], ?_⟩
  rcases Pitch.read_cases s Pitch.defaultOctave with h | ⟨p, o, h, -⟩ | ⟨g, h, hg⟩
  · simp [h] at hs
  · simp [h] at hs
  · obtain rfl : g = f := by simpa [h] using hs
    exact hg

/-- **A lookup finds the last valid entry of a name.** Whatever was looked up before, a kit is found
if a document of the package or of the project is one of this name: the last of them, else the kit
that is always there if it is called so, else none. Tunings are found in the same way, where those
with a string that is no pitch do not count, as long as all strings can be checked. Where one cannot
be checked, because of a numeral that is too long or an accidental spelled with a long s, every
lookup of a tuning fails with the fault of the first such tuning. -/
theorem lookup_lastValid {kits tunings kits' tunings' : List Node} {l : Library}
    (h : Library.Reached ((Shelf.ofNodes kits tunings).append (.ofNodes kits' tunings')) l)
    (name : String) :
    Prod.fst <$> l.kit? name =
        .ok (lastNamed Kit.name Kit.general (kitsIn (kits ++ kits')) name) ∧
      ((∀ t ∈ tuningsIn (tunings ++ tunings'), ∀ f, ¬ t.Breaks f) →
        Prod.fst <$> l.tuning? name =
          .ok (lastNamed Tuning.name Tuning.guitar
            ((tuningsIn (tunings ++ tunings')).filter (·.Pitched)) name)) ∧
      (∀ f, l.tuning? name = .error f ↔
        FirstOf (fun t : Tuning => ∀ g, ¬ t.Breaks g) (·.Breaks f)
          (tuningsIn (tunings ++ tunings'))) ∧
      ∀ f, l.tuning? name = .error f →
        ∃ t ∈ tuningsIn (tunings ++ tunings'), ∃ s ∈ t.strings, f.IsTooLong ∨ f.IsLongS s := by
  rw [Shelf.append_ofNodes] at h
  have htuning := h.holds.tuning? name
  have hfails (f : Fault) : l.tuning? name = .error f ↔
      FirstOf (fun t : Tuning => ∀ g, ¬ t.Breaks g) (·.Breaks f)
        (tuningsIn (tunings ++ tunings')) := by
    rw [← map_eq_error Prod.fst, htuning, map_eq_error]
    exact loadTunings_eq_error ..
  refine ⟨?_, fun hchecks => ?_, hfails, fun f hf => ?_⟩
  · rw [h.holds.kit?]
    exact get?_loadKits ..
  · rw [htuning]
    exact get?_loadTunings hchecks name
  · obtain ⟨before, t, after, hts, -, ht⟩ := (hfails f).mp hf
    exact ⟨t, by simp [hts], ht.fault⟩

def card (name field : String) (value : Node) : Node :=
  .mapping [(Shelf.text "name", Shelf.text name), (Shelf.text field, value)]

def kitCard (name symbol : String) (midi : Int) : Node :=
  card name "map" (.mapping [(Shelf.text symbol, .scalar (.int midi))])

def tuningCard (name : String) (strings : List String) : Node :=
  card name "strings" (.list (strings.map Shelf.text))

/-- A project that overrides a kit, with a document that has no map and a tuning that has a string
that is no pitch. -/
def overridden : Shelf :=
  (Shelf.ofNodes [kitCard "rock" "k" 36] [tuningCard "open" ["C2", "G2"]]).append
    (.ofNodes [kitCard "rock" "k" 35, card "rock" "about" (Shelf.text "no map")]
      [tuningCard "open" ["E2", "zz"]])

theorem lookup_lastValid_override :
    Library.Reached overridden (Library.clear { shelf := overridden }) ∧
      Prod.fst <$> Library.kit? "rock" (Library.clear { shelf := overridden }) =
        .ok (some ⟨"rock", "", [("k", .plain 35)]⟩) ∧
      Prod.fst <$> Library.tuning? "open" (Library.clear { shelf := overridden }) =
        .ok (some ⟨"open", "", ["C2", "G2"]⟩) := by
  have hreached : Library.Reached overridden (Library.clear { shelf := overridden }) :=
    .clear .unloaded
  obtain ⟨hkit, -⟩ := lookup_lastValid hreached "rock"
  obtain ⟨-, htuning, -⟩ := lookup_lastValid hreached "open"
  refine ⟨hreached, hkit.trans (by decide +kernel), (htuning ?_).trans (by decide +kernel)⟩
  have hchecks : ∀ t ∈ tuningsIn [tuningCard "open" ["C2", "G2"], tuningCard "open" ["E2", "zz"]],
      (allPitches t.strings).isOk = true := by decide +kernel
  intro t ht f hbreaks
  have hok := hchecks t ht
  rw [allPitches_eq_error.mpr hbreaks] at hok
  cases hok

/-- A project whose only tuning has an accidental that is spelled with a long s. -/
def misspelled : Shelf := (Shelf.ofNodes [] []).append (.ofNodes [] [tuningCard "odd" ["cqſ"]])

/-- The standard guitar is not found beside a tuning that cannot be checked. -/
theorem not_lookup_beside_longS :
    Library.Reached misspelled { shelf := misspelled } ∧
      lastNamed Tuning.name Tuning.guitar
        ((tuningsIn [tuningCard "odd" ["cqſ"]]).filter (·.Pitched))
        "guitar_standard" = some Tuning.guitar ∧
      Library.tuning? "guitar_standard" { shelf := misspelled } =
        .error (.unknownAccidental "qſ") := by
  have hreached : Library.Reached misspelled { shelf := misspelled } := .unloaded
  have hload : loadTunings misspelled.tunings = .error (.unknownAccidental "qſ") := by
    decide +kernel
  refine ⟨hreached, by decide +kernel, ?_⟩
  rw [← map_eq_error Prod.fst, hreached.holds.tuning?, hload, error_map]

end Partitura
