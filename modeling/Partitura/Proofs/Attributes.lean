import Partitura.Compile.Declare
import Partitura.Proofs.Run

/-!
What setting an attribute of an instrument can do.

A value is looked for: it is written in the attribute, or it stands in the library under the name
that is written there. If there is one, the instrument takes it; if not, that is reported, and the
instrument stays as it is. This is said once here (`SetBy`), wherever the attribute stands in the
text, so that a judgement on runs only has to be checked for a search and for a report.
-/

namespace Partitura

open Number

variable {P α β : Type}

/-- An event or a call that is refused. What is wrong with an attribute is no refusal. -/
def Issue.isRefusal : Issue → Bool
  | .unknownMacro _ | .macroTooDeep _ _ | .macroBudget _ | .eventLimit _ => true
  | _ => false

/-- What attributes do not change. -/
def Instrument.names (i : Instrument) : String × String × Option String := (i.id, i.label, i.group)

/-! ### Searches -/

inductive Search (α : Type)
  /-- In the text: reading it may fail. -/
  | written (found : Except Fault (Option α))
  | kit (name : String) (g : Kit → α)
  | tuning (name : String) (g : Tuning → α)

namespace Run

def consult (look : Library → Except Fault (α × Library)) : Run P α := do
  let (a, library) ← lift (look (← get).library)
  modify fun c => { c with library }
  return a

def search : Search α → Run P (Option α)
  | .written found => lift found
  | .kit name g => do return (← consult (·.kit? name)).map g
  | .tuning name g => do return (← consult (·.tuning? name)).map g

def orReport (i : Instrument) (issue : Issue) (t : Token P) : Option Instrument → Run P Instrument
  | some j => return j
  | none => do report issue (some t); return i

/-- The pitches of a row, if there are any and all are pitches. -/
def readRow (s : String) : Except Fault (Option (List String)) := do
  if (pitchRow s).isEmpty then return none
  return if ← allPitches (pitchRow s) then some (pitchRow s) else none

lemma allPitches_of_readRow {s : String} {strings : List String}
    (h : readRow s = .ok (some strings)) :
    strings = pitchRow s ∧ allPitches strings = .ok true := by
  unfold readRow at h
  split at h
  · cases h
  · rcases hall : allPitches (pitchRow s) with f | _ | _
    · rw [hall] at h
      cases h
    · rw [hall] at h
      cases h
    · rw [hall] at h
      cases h
      exact ⟨rfl, hall⟩

lemma allPitches_of_readRow_error {s : String} {f : Fault} (h : readRow s = .error f) :
    allPitches (pitchRow s) = .error f := by
  unfold readRow at h
  split at h
  · cases h
  · rcases hall : allPitches (pitchRow s) with f | _ | _ <;> rw [hall] at h <;> cases h
    rfl

lemma map_map_eq_some {x : Except Fault (Option α)} {g : α → β} {b : β} :
    Option.map g <$> x = .ok (some b) ↔ ∃ a, x = .ok (some a) ∧ g a = b := by
  rcases x with f | _ | a <;> simp

/-! ### What is looked for -/

/-- A search for an instrument that differs from `i` by an attribute. -/
inductive Sought (i : Instrument) (value : String) : Search Instrument → Prop
  | plain {found : Option Instrument}
      (h : ∀ j, found = some j → j.names = i.names ∧ j.tuning = i.tuning) :
      Sought i value (.written (.ok found))
  | map : Sought i value (.kit value fun kit => { i with map := some kit.map })
  | row (h : isPitchRow value = true) : Sought i value
      (.written (Option.map (fun strings => { i with tuning := some strings }) <$> readRow value))
  | tuning (h : isPitchRow value = false) :
      Sought i value (.tuning value fun tuning => { i with tuning := some tuning.strings })

lemma findMap_eq {name : String} (h : name ≠ Kit.general.name) :
    findMap (P := P) name = search (.kit name Kit.map) := by
  simp only [findMap, h, if_false, search, consult, bind_assoc, pure_bind]

lemma findTuning_eq (s : String) : findTuning (P := P) s =
    search (if isPitchRow s then .written (readRow s) else .tuning s Tuning.strings) := by
  cases hrow : isPitchRow s with
  | false =>
    simp only [findTuning, hrow, Bool.false_eq_true, if_false, search, consult, bind_assoc,
      pure_bind]
  | true =>
    simp only [findTuning, hrow, if_true, search, readRow]
    split
    · rfl
    · rcases allPitches (pitchRow s) with f | _ | _ <;> rfl

/-- Setting an attribute is a search, and a report that is no refusal where nothing is found. -/
structure SetBy (i : Instrument) (key value : String) (s : Search Instrument) (issue : Issue) :
    Prop where
  sought : Sought i value s
  noRefusal : issue.isRefusal = false
  eq : ∀ {P : Type} (t : Token P),
    setAttribute i ⟨key, value, t⟩ = search s >>= orReport i issue t

lemma exists_setBy_map (i : Instrument) (value : String) :
    ∃ s, SetBy i "map" value s (.unknownMap value i.id) := by
  by_cases hgeneral : value = Kit.general.name
  · refine ⟨.written (.ok (some { i with map := some generalDrums })),
      .plain (by simp [Instrument.names]), rfl, fun t => ?_⟩
    simp only [setAttribute, if_true, findMap, hgeneral, pure_bind]
    rfl
  · refine ⟨_, .map, rfl, fun t => ?_⟩
    simp only [setAttribute, if_true, findMap_eq hgeneral, search, bind_assoc, pure_bind]
    refine bind_congr fun kit => ?_
    cases kit <;> rfl

lemma exists_setBy_tuning (i : Instrument) (value : String) :
    ∃ s, SetBy i "tuning" value s (.unknownTuning value i.id) := by
  cases hrow : isPitchRow value with
  | true =>
    refine ⟨_, .row hrow, rfl, fun t => ?_⟩
    simp only [setAttribute, if_true, findTuning_eq, hrow, search]
    rcases readRow value with f | _ | strings <;> rfl
  | false =>
    refine ⟨_, .tuning hrow, rfl, fun t => ?_⟩
    simp only [setAttribute, if_true, findTuning_eq, hrow, search, bind_assoc, pure_bind,
      Bool.false_eq_true, if_false]
    refine bind_congr fun tuning => ?_
    cases tuning <;> rfl

/-- What is written in an attribute other than these two changes neither names nor strings. -/
lemma exists_setBy_plain (i : Instrument) {key : String} (value : String) (hmap : key ≠ "map")
    (htuning : key ≠ "tuning") : ∃ s issue, SetBy i key value s issue := by
  by_cases hstyle : key = "style"
  · refine ⟨.written (.ok ((Style.ofText? value).map fun style => { i with style })),
      .invalidStyle value i.id, .plain (by simp [Instrument.names]), rfl, fun t => ?_⟩
    simp only [setAttribute, hstyle, if_true]
    cases Style.ofText? value <;> rfl
  by_cases hclef : key = "clef"
  · refine ⟨.written (.ok (some { i with clef := some value })), .unknownAttribute key i.id,
      .plain (by simp [Instrument.names]), rfl, fun t => ?_⟩
    simp only [setAttribute, hclef, if_true]
    rfl
  by_cases hpatch : key = "patch"
  · refine ⟨.written (.ok (some { i with patch := some value })), .unknownAttribute key i.id,
      .plain (by simp [Instrument.names]), rfl, fun t => ?_⟩
    simp only [setAttribute, hpatch, if_true]
    rfl
  by_cases htranspose : key = "transpose"
  · refine ⟨.written (.ok ((readInt value).toOption.map fun n => { i with transpose := some n })),
      .invalidValue key value i.id, .plain (by simp [Instrument.names]), rfl, fun t => ?_⟩
    simp only [setAttribute, htranspose, if_true]
    cases readInt value <;> rfl
  by_cases hamount : key = "vol" ∨ key = "volume" ∨ key = "pan"
  · -- here the key is no literal, so the tests before this one have to be ruled out
    refine ⟨.written (.ok ((readDouble value).map fun x =>
        if key = "pan" then { i with pan := some x } else { i with volume := some x })),
      .invalidValue key value i.id, .plain fun j hj => ?_, rfl, fun t => ?_⟩
    · obtain ⟨x, -, rfl⟩ := Option.map_eq_some_iff.mp hj
      split <;> exact ⟨rfl, rfl⟩
    · simp only [setAttribute, hstyle, hclef, hpatch, htranspose, hamount, if_true, if_false]
      cases readDouble value <;> rfl
  · refine ⟨.written (.ok none), .unknownAttribute key i.id, .plain (by simp), rfl, fun t => ?_⟩
    simp only [setAttribute, hstyle, hclef, hpatch, htranspose, hamount, hmap, htuning, if_false]
    rfl

lemma exists_setBy (i : Instrument) (key value : String) :
    ∃ s issue, SetBy i key value s issue := by
  by_cases hmap : key = "map"
  · obtain ⟨s, h⟩ := exists_setBy_map i value
    exact ⟨s, _, hmap ▸ h⟩
  by_cases htuning : key = "tuning"
  · obtain ⟨s, h⟩ := exists_setBy_tuning i value
    exact ⟨s, _, htuning ▸ h⟩
  · exact exists_setBy_plain i value hmap htuning

/-- A run that sets an attribute keeps what searches and reports keep. -/
lemma setAttribute_keeps_of {I : Context P → Prop} {F : Fault → Prop} {Q : Instrument → Prop}
    {i : Instrument} {a : Attribute P} (hi : Q i)
    (hreport : ∀ issue, issue.isRefusal = false →
      Keeps I F (report issue (some a.token)) fun _ => True)
    (hsearch : ∀ s, Sought i a.value s →
      Keeps I F (search s) fun found => ∀ j, found = some j → Q j) :
    Keeps I F (setAttribute i a) Q := by
  obtain ⟨key, value, t⟩ := a
  obtain ⟨s, issue, hs, hissue, hset⟩ := exists_setBy i key value
  rw [hset]
  refine (hsearch s hs).bind fun found hfound => ?_
  cases found with
  | some j => exact Keeps.pure (hfound j rfl)
  | none => exact (hreport issue hissue).bind fun _ _ => Keeps.pure hi

end Run

end Partitura
