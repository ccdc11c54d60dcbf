import Partitura.Proofs.Definitions
import Partitura.Proofs.Literals
import Partitura.Proofs.Lookup

/-!
Tablature.

A fret and a string name a pitch as soon as there is such a string, since whatever an instrument is
tuned to was checked: a tuning of the library when it was loaded, and a row of pitches when it was
found (`search_tuned`). Strings are counted from the last of a tuning.
-/

namespace Partitura

open Run Number Text

variable {P : Type}

/-! ### What instruments are tuned to -/

lemma guitarStrings_pitches : ∀ s ∈ guitarStrings, IsPitch s := by
  have hall : allPitches guitarStrings = .ok true := by decide +kernel
  exact allPitches_eq_true.mp hall

/-- Every tuning that a library offers is one of pitches. -/
lemma Tunings.pitched (tunings : Tunings) {name : String} {t : Tuning}
    (h : get? name tunings.list = some t) : t.Pitched := by
  obtain ⟨docs, hdocs⟩ := tunings.loaded
  exact forall_mem_loadTunings guitarStrings_pitches (fun _ hvalid => allPitches_eq_true.mp hvalid)
    hdocs (name, t) (mem_of_get? h)

/-- An instrument that is tuned to pitches, if to anything. -/
def Instrument.Tuned (i : Instrument) : Prop :=
  ∀ strings, i.tuning = some strings → ∀ s ∈ strings, IsPitch s

namespace Run

/-- **A tuning that is found is one of pitches**, be it one of the library or a row. -/
lemma search_tuned {i : Instrument} (hi : i.Tuned) {value : String} {s : Search Instrument}
    (hs : Sought i value s) : Keeps (fun _ : Context P => True) (fun _ => True) (search s)
      fun found => ∀ j, found = some j → j.Tuned := by
  cases hs with
  | plain h =>
    refine Keeps.pure fun j hj => ?_
    unfold Instrument.Tuned
    rwa [(h j hj).2]
  | map =>
    intro c _
    rw [eval_search_kit]
    rcases c.library.kitList with f | kits
    · exact .error trivial
    · refine .ok trivial fun j hj => ?_
      obtain ⟨kit, -, rfl⟩ := Option.map_eq_some_iff.mp hj
      exact hi
  | row hrow =>
    rw [search]
    refine Keeps.lift ?_ fun _ _ => trivial
    rintro _ hfound j rfl
    obtain ⟨strings, hread, rfl⟩ := map_map_eq_some.mp hfound
    rintro _ ⟨⟩
    exact allPitches_eq_true.mp (allPitches_of_readRow hread).2
  | tuning hrow =>
    intro c _
    rw [eval_search_tuning]
    rcases c.library.tuningList with f | tunings
    · exact .error trivial
    · refine .ok trivial fun j hj => ?_
      obtain ⟨t, ht, rfl⟩ := Option.map_eq_some_iff.mp hj
      rintro strings ⟨⟩
      exact tunings.pitched ht

lemma setAttribute_tuned {i : Instrument} (hi : i.Tuned) (a : Attribute P) :
    Keeps (fun _ : Context P => True) (fun _ => True) (setAttribute i a) Instrument.Tuned :=
  setAttribute_keeps_of hi (fun _ _ => Keeps.modify fun _ _ => trivial)
    fun _ hs => search_tuned hi hs

end Run

lemma Definition.Makes.tuned {l : Library} {group : Option String} {d : Definition P}
    {i : Instrument} (h : d.Makes l group i) : i.Tuned := by
  obtain ⟨e, he⟩ := h
  have hkeeps : Keeps (fun _ : Context P => True) (fun _ => True) (make group d)
      Instrument.Tuned := by
    refine Keeps.foldlM ?_ fun i hi a _ => setAttribute_tuned hi a
    rintro strings ⟨⟩
  have hends := hkeeps (.start {} l) trivial
  rw [he] at hends
  cases hends with
  | ok _ hi => exact hi

/-! ### Frets and strings -/

/-- The open strings of an instrument in the order tablature counts them: from the last of its
tuning to the first, or those of a guitar if it is tuned to nothing. -/
def Instrument.openStrings (i : Instrument) : List String :=
  match i.tuning with
  | some (s :: strings) => (s :: strings).reverse
  | _ => ["E4", "B3", "G3", "D3", "A2", "E2"]

lemma Instrument.openStrings_eq (i : Instrument) :
    i.openStrings = (orDefault guitarStrings i.tuning).reverse := by
  unfold openStrings orDefault
  rcases i.tuning with _ | _ | ⟨s, strings⟩ <;> rfl

lemma Instrument.Tuned.openStrings {i : Instrument} (h : i.Tuned) :
    ∀ note ∈ i.openStrings, IsPitch note := by
  intro note hnote
  rw [i.openStrings_eq, List.mem_reverse] at hnote
  rcases htuning : i.tuning with _ | _ | ⟨s, strings⟩
  · exact guitarStrings_pitches note (by simpa [htuning, orDefault] using hnote)
  · exact guitarStrings_pitches note (by simpa [htuning, orDefault] using hnote)
  · exact h _ htuning note (by simpa [htuning, orDefault] using hnote)

def tabText (fret string : Digits) : String := .ofList (fret.chars ++ '-' :: string.chars)

/-- What is read of a fret and a string before it is asked whether there is such a string. -/
lemma tabPitch_tabText (strings : List String) {fret string : Digits}
    (hfret : fret.chars.length ≤ digitLimit) (hstring : string.chars.length ≤ digitLimit) :
    tabPitch strings (tabText fret string) =
      if 1 ≤ (string.value : Int) ∧ (string.value : Int) ≤ strings.length then
        match strings[((strings.length : Int) - string.value).toNat]? with
        | none => throw .tokenOutOfRange
        | some note => do
          match ← Pitch.read note Pitch.defaultOctave with
          | some (p, _) => return some (p.transpose fret.value)
          | none => return none
      else return none := by
  have hdash : '-' ∉ fret.chars := fun h => absurd (fret.digits _ h) (by decide)
  have hcut : cutAt '-' (tabText fret string).toList = (fret.chars, some string.chars) := by
    rw [tabText, String.toList_ofList, cutAt_append_of_not_mem hdash]
  have hfigures (d : Digits) : (!d.chars.isEmpty) = true ∧ d.chars.all isFigure = true := by
    refine ⟨by simpa using d.nonempty, List.all_eq_true.mpr fun c hc => ?_⟩
    rw [isFigure, d.isDigit c hc, Bool.true_or]
  unfold tabPitch
  rw [hcut]
  simp only [(hfigures fret).1, (hfigures fret).2, (hfigures string).1, (hfigures string).2,
    Bool.and_self, if_true]
  have hreadFret := fret.readInt hfret false
  have hreadString := string.readInt hstring false
  simp only [Bool.false_eq_true, if_false] at hreadFret hreadString
  rw [hreadFret, hreadString]
  rfl

lemma tabPitch_of_string {strings : List String} {fret string : Digits}
    (hfret : fret.chars.length ≤ digitLimit) (hstring : string.chars.length ≤ digitLimit)
    {note : String} (hpos : 1 ≤ string.value)
    (hnote : strings.reverse[string.value - 1]? = some note) {p : Pitch} {octave : Int}
    (hp : Pitch.read note Pitch.defaultOctave = .ok (some (p, octave))) :
    tabPitch strings (tabText fret string) = .ok (some (p.transpose fret.value)) := by
  have hle : string.value - 1 < strings.length := by
    simpa using (List.getElem?_eq_some_iff.mp hnote).1
  have hindex : ((strings.length : Int) - string.value).toNat =
      strings.length - 1 - (string.value - 1) := by omega
  rw [List.getElem?_reverse hle] at hnote
  rw [tabPitch_tabText strings hfret hstring, if_pos (by omega), hindex, hnote]
  simp only [hp, ok_bind]
  rfl

lemma tabPitch_of_no_string {strings : List String} {fret string : Digits}
    (hfret : fret.chars.length ≤ digitLimit) (hstring : string.chars.length ≤ digitLimit)
    (hnone : ¬ (1 ≤ string.value ∧ string.value ≤ strings.length)) :
    tabPitch strings (tabText fret string) = .ok none := by
  rw [tabPitch_tabText strings hfret hstring, if_neg (by omega)]
  rfl

/-- On tablature a symbol that has no pitch is reported, and nothing else happens. -/
lemma eval_resolve_tab {i : Instrument} (htab : i.style = .tab) {s : String} {r : Option Pitch}
    (h : tabPitch (orDefault guitarStrings i.tuning) s = .ok r) (key : VoiceKey)
    (t : Option (Token P)) (c : Context P) :
    ∃ d, eval (resolve i key t s) c = .ok (r.getD .nominal, d) ∧
      d.reports = if r.isSome then c.reports
        else ⟨.unresolvedPitch s .tab i.id, t.map Token.pos⟩ :: c.reports := by
  unfold resolve resolvePitch
  cases r with
  | some p => exact ⟨c.withCursor key (c.cursor key), by simp [htab, h], rfl⟩
  | none =>
    exact ⟨(c.withCursor key (c.cursor key)).note (.unresolvedPitch s .tab i.id) t,
      by simp [htab, h], rfl⟩

/-- **Tablature is exact on every instrument that can be defined.** Let a definition give an
instrument that is written in tablature, in whatever state and with whatever library. Its open
strings are all pitches, and a fret and a string within the limit of digits are resolved without a
report if and only if there is such a string, to its open pitch raised by the fret; any other string
is reported. -/
theorem resolve_tablature {group : Option String} {b : InstrumentBlock P} {c₀ c₁ : Context P}
    {i : Instrument} (hdefine : (defineInstrument group b).run c₀ = .ok (some i) c₁)
    (htab : i.style = .tab) (fret string : Digits) (hfret : fret.chars.length ≤ digitLimit)
    (hstring : string.chars.length ≤ digitLimit) (key : VoiceKey) (t : Option (Token P))
    (c : Context P) :
    (∀ note ∈ i.openStrings, ∃ p octave, Pitch.read note 4 = .ok (some (p, octave))) ∧
      ((∃ p d, (resolve i key t (tabText fret string)).run c = .ok p d ∧ d.reports = c.reports) ↔
        1 ≤ string.value ∧ string.value ≤ i.openStrings.length) ∧
      (∀ note, 1 ≤ string.value → i.openStrings[string.value - 1]? = some note →
        ∃ p octave d, Pitch.read note 4 = .ok (some (p, octave)) ∧
          (resolve i key t (tabText fret string)).run c =
            .ok ⟨p.midi + fret.value, p.cents⟩ d ∧ d.reports = c.reports) ∧
      (¬ (1 ≤ string.value ∧ string.value ≤ i.openStrings.length) →
        ∃ d, (resolve i key t (tabText fret string)).run c = .ok .nominal d ∧
          d.reports =
            ⟨.unresolvedPitch (tabText fret string) .tab i.id, t.map Token.pos⟩ :: c.reports) := by
  have hpitches : ∀ note ∈ i.openStrings, ∃ p octave,
      Pitch.read note Pitch.defaultOctave = .ok (some (p, octave)) := by
    cases defineInstrument_cases (.refl c₀.library) (eval_eq_ok.mpr hdefine) with
    | fresh _ _ hmakes _ =>
      intro note hnote
      obtain ⟨⟨p, octave⟩, hp⟩ := hmakes.tuned.openStrings note hnote
      exact ⟨p, octave, hp⟩
  have hsome (note : String) (hpos : 1 ≤ string.value)
      (hnote : i.openStrings[string.value - 1]? = some note) :
      ∃ p octave d, Pitch.read note Pitch.defaultOctave = .ok (some (p, octave)) ∧
        (resolve i key t (tabText fret string)).run c = .ok ⟨p.midi + fret.value, p.cents⟩ d ∧
        d.reports = c.reports := by
    obtain ⟨p, octave, hp⟩ := hpitches note (List.mem_of_getElem? hnote)
    rw [i.openStrings_eq] at hnote
    have hpitch := tabPitch_of_string hfret hstring hpos hnote hp
    obtain ⟨d, hrun, hreports⟩ := eval_resolve_tab htab hpitch key t c
    exact ⟨p, octave, d, hp, eval_eq_ok.mp hrun, hreports⟩
  have hnone (hno : ¬ (1 ≤ string.value ∧ string.value ≤ i.openStrings.length)) :
      ∃ d, (resolve i key t (tabText fret string)).run c = .ok .nominal d ∧
        d.reports =
          ⟨.unresolvedPitch (tabText fret string) .tab i.id, t.map Token.pos⟩ :: c.reports := by
    rw [i.openStrings_eq, List.length_reverse] at hno
    obtain ⟨d, hrun, hreports⟩ :=
      eval_resolve_tab htab (tabPitch_of_no_string hfret hstring hno) key t c
    exact ⟨d, eval_eq_ok.mp hrun, hreports⟩
  refine ⟨hpitches, ⟨?_, ?_⟩, hsome, hnone⟩
  · rintro ⟨p, d, hrun, hreports⟩
    by_contra hno
    obtain ⟨d', hrun', hreports'⟩ := hnone hno
    cases hrun.symm.trans hrun'
    simp [hreports] at hreports'
  · rintro ⟨hpos, hle⟩
    obtain ⟨p, octave, d, -, hrun, hreports⟩ :=
      hsome _ hpos (List.getElem?_eq_getElem (by omega : string.value - 1 < i.openStrings.length))
    exact ⟨_, d, hrun, hreports⟩

/-- Three strings in quotes, one without an octave and a quarter tone sharp. -/
def threeStrings : InstrumentBlock Nat :=
  (readInstrument (tokenize "def b style=tab tuning=\"B1, e2 Aqs\"")).1

theorem resolve_tablature_threeStrings :
    ∃ (i : Instrument) (c : Context Nat),
      (defineInstrument none threeStrings).run (.start {} .shipped) = .ok (some i) c ∧
      i.style = .tab ∧ i.openStrings = ["Aqs", "e2", "B1"] ∧
      (∃ d, (resolve i ⟨"b", "v1"⟩ none "12-1").run c = .ok ⟨81, 50⟩ d ∧ d.reports = c.reports) ∧
      ∃ d, (resolve i ⟨"b", "v1"⟩ none "12-4").run c = .ok .nominal d ∧
        d.reports = ⟨.unresolvedPitch "12-4" .tab i.id, none⟩ :: c.reports := by
  have hdefined : passes (defineInstrument none threeStrings) (.start {} .shipped)
      (fun found _ => found.any fun i => i.style == .tab &&
        i.openStrings == ["Aqs", "e2", "B1"]) = true := by decide +kernel
  obtain ⟨found, c, hdefine, hchecks⟩ := exists_of_passes hdefined
  rw [Option.any_eq_true] at hchecks
  obtain ⟨i, rfl, hi⟩ := hchecks
  rw [Bool.and_eq_true, beq_iff_eq, beq_iff_eq] at hi
  obtain ⟨htab, hstrings⟩ := hi
  let twelve : Digits := ⟨['1', '2'], by simp, List.all_eq_true.mp (by decide)⟩
  let first : Digits := ⟨['1'], by simp, List.all_eq_true.mp (by decide)⟩
  let fourth : Digits := ⟨['4'], by simp, List.all_eq_true.mp (by decide)⟩
  obtain ⟨-, -, hsome, -⟩ := resolve_tablature hdefine htab twelve first (by decide) (by decide)
    ⟨"b", "v1"⟩ none c
  obtain ⟨-, -, -, hnone⟩ := resolve_tablature hdefine htab twelve fourth (by decide) (by decide)
    ⟨"b", "v1"⟩ none c
  obtain ⟨p, octave, d, hp, hresolve, hreports⟩ :=
    hsome "Aqs" (by decide) (by rw [hstrings]; rfl)
  have hopen : Pitch.read "Aqs" 4 = .ok (some (⟨69, 50⟩, 4)) := by decide +kernel
  obtain ⟨rfl, rfl⟩ : (⟨69, 50⟩ : Pitch) = p ∧ 4 = octave := by simpa using hopen.symm.trans hp
  exact ⟨i, c, hdefine, htab, hstrings, ⟨d, hresolve, hreports⟩,
    hnone (by rw [hstrings]; decide)⟩

end Partitura
