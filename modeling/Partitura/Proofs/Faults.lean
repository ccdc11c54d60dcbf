import Partitura.Proofs.Loading
import Partitura.Proofs.Soundness

/-!
A compilation can only fail at a limit.

Of the faults a run may end with, those of the library are ruled out if its lookups do not
raise: the strings of every tuning that was loaded were read when it was loaded.
-/

namespace Partitura

open Number

def Tuning.Readable (t : Tuning) : Prop :=
  ∀ s ∈ t.strings, ∀ f, Pitch.read s Pitch.defaultOctave ≠ .error f

/-- Tunings are checked as they are loaded, so all that are there were checked, but for the one that
is always there. -/
lemma forall_mem_loadTunings {C : Tuning → Prop} (hguitar : C .guitar)
    (hchecked : ∀ t : Tuning, allPitches t.strings = .ok true → C t)
    {docs : List (Except Fault Yaml.Node)} {tunings : List (String × Tuning)}
    (h : loadTunings docs = .ok tunings) : ∀ p ∈ tunings, C p.2 :=
  Loader.tunings.forall_mem_load hguitar hchecked (Loader.load_tunings docs ▸ h)

lemma loadTunings_readable {docs : List (Except Fault Yaml.Node)} {tunings : List (String × Tuning)}
    (h : loadTunings docs = .ok tunings) : ∀ p ∈ tunings, p.2.Readable :=
  forall_mem_loadTunings (fun _ hs f => guitarStrings_read hs f)
    (fun _ hvalid => Run.allPitches_true hvalid) h

/-- A library whose lookups do not raise raises nothing. -/
lemma Library.not_raises {l : Library} (hkits : ∀ name f, l.kit? name ≠ .error f)
    (htunings : ∀ name f, l.tuning? name ≠ .error f) (f : Fault) : ¬ l.Raises f := by
  intro h
  cases h with
  | kits h => exact hkits "" f (by rw [kit?_eq, h]; rfl)
  | tunings h => exact htunings "" f (by rw [tuning?_eq, h]; rfl)
  | @strings tunings h name t ht s hs hf =>
    obtain ⟨docs, hdocs⟩ := tunings.loaded
    exact loadTunings_readable hdocs (name, t) (mem_of_get? ht) s hs f hf

/-- **Only the faults of limits are possible**: whatever the source and the options, a
compilation with a library that does not raise fails because of strictness or at a limit. -/
theorem compile_internal_limitFault {o : Options} {l l' : Library} {source : String} {f : Fault}
    (hkits : ∀ name f, l.kit? name ≠ .error f)
    (htunings : ∀ name f, l.tuning? name ≠ .error f)
    (h : compile o l source = (.error (.internal f), l')) : LimitFault (tokenize source) f := by
  unfold compile at h
  rcases compileTokens_sound (tokenize_plain source) o l with ⟨c, hrun, -⟩ | ⟨s, c, hrun, hf⟩
  · rw [hrun] at h
    simp only at h
    split at h <;> simp at h
  · rw [hrun] at h
    obtain ⟨rfl, -⟩ : s.fault = f ∧ c.library = l' := by simpa using h
    rcases hf with hlimit | hraises
    · exact hlimit
    · exact absurd hraises (Library.not_raises hkits htunings s.fault)

/-- An accidental with a long s in a quoted tuning. -/
theorem compile_internal_limitFault_tuning :
    (∀ name f, Library.shipped.kit? name ≠ .error f) ∧
      (∀ name f, Library.shipped.tuning? name ≠ .error f) ∧
      ∃ l, compile {} .shipped "def g tuning=\"Eqſ A\"" =
          (.error (.internal (.unknownAccidental "qſ")), l) ∧
        LimitFault (tokenize "def g tuning=\"Eqſ A\"") (.unknownAccidental "qſ") := by
  have hkits (name : String) (f : Fault) : Library.shipped.kit? name ≠ .error f := by
    have hok : Library.shipped.kitList.isOk = true := by decide +kernel
    rw [Library.kit?_eq]
    generalize Library.shipped.kitList = kits at hok
    cases kits with
    | error g => cases hok
    | ok kits => simp
  have htunings (name : String) (f : Fault) : Library.shipped.tuning? name ≠ .error f := by
    have hok : Library.shipped.tuningList.isOk = true := by decide +kernel
    rw [Library.tuning?_eq]
    generalize Library.shipped.tuningList = tunings at hok
    cases tunings with
    | error g => cases hok
    | ok tunings => simp
  have hcompile : ∃ l, compile {} .shipped "def g tuning=\"Eqſ A\"" =
      (.error (.internal (.unknownAccidental "qſ")), l) := by
    have hfails : (match compile {} .shipped "def g tuning=\"Eqſ A\"" with
        | (.error (.internal f), _) => f == .unknownAccidental "qſ"
        | _ => false) = true := by decide +kernel
    generalize compile {} .shipped "def g tuning=\"Eqſ A\"" = r at hfails
    obtain ⟨(f | ns) | compiled, l⟩ := r
    · obtain rfl : f = .unknownAccidental "qſ" := by simpa using hfails
      exact ⟨l, rfl⟩
    · cases hfails
    · cases hfails
  obtain ⟨l, hl⟩ := hcompile
  exact ⟨hkits, htunings, l, hl, compile_internal_limitFault hkits htunings hl⟩

end Partitura
