import Partitura.Proofs.Approximation
import Partitura.Proofs.Lexing
import Partitura.Proofs.WellFormed
import Partitura.Stored.Read
import Partitura.Stored.Written

/-!
Scores that are written as plain data and read back.

Everything in a score comes back as it was, durations apart: they are written as doubles, and what
is read is the nearest fraction with a denominator up to the ticks in a quarter. So a score is
read back unchanged if and only if its durations have such denominators.
-/

namespace Partitura

open Number Text

/-! ### Lists of results -/

lemma mapM_map_pure {m : Type → Type} [Monad m] [LawfulMonad m] {α β : Type} {f : α → β}
    {g : β → m α} (h : ∀ a, g (f a) = pure a) (xs : List α) : (xs.map f).mapM g = pure xs := by
  induction xs with
  | nil => simp
  | cons x xs ih => simp [h, ih]

lemma mapM_isOk_iff {α β : Type} {f : α → Except Fault β} {xs : List α} :
    (∃ ys, xs.mapM f = .ok ys) ↔ ∀ x ∈ xs, ∃ y, f x = .ok y := by
  induction xs with
  | nil => exact ⟨by simp, fun _ => ⟨[], rfl⟩⟩
  | cons x xs ih =>
    rw [List.forall_mem_cons, ← ih, List.mapM_cons]
    constructor
    · rintro ⟨_, h⟩
      obtain ⟨y, hy, h⟩ := bind_eq_ok.mp h
      obtain ⟨ys, hys, -⟩ := bind_eq_ok.mp h
      exact ⟨⟨y, hy⟩, ys, hys⟩
    · rintro ⟨⟨y, hy⟩, ys, hys⟩
      exact ⟨y :: ys, by rw [hy, ok_bind, hys]; rfl⟩

lemma mapM_eq_ok_map {α β γ : Type} {f : α → Except Fault β} {g : β → Except Fault γ} {k : α → γ}
    {xs : List α} {ys : List β} (hfg : ∀ x ∈ xs, ∀ y, f x = .ok y → g y = .ok (k x))
    (h : xs.mapM f = .ok ys) : ys.mapM g = .ok (xs.map k) := by
  induction xs generalizing ys with
  | nil =>
    cases h
    rfl
  | cons x xs ih =>
    rw [List.mapM_cons] at h
    obtain ⟨y, hy, h⟩ := bind_eq_ok.mp h
    obtain ⟨ys, hys, h⟩ := bind_eq_ok.mp h
    cases h
    rw [List.mapM_cons, hfg x (by simp) y hy, ok_bind, ih (fun x hx => hfg x (by simp [hx])) hys]
    rfl

/-! ### Fields -/

lemma get?_append {α : Type} (key : String) (xs ys : List (String × α)) :
    get? key (xs ++ ys) = (get? key xs).or (get? key ys) := by
  induction xs with
  | nil => simp [get?]
  | cons x xs ih =>
    obtain ⟨k, v⟩ := x
    by_cases h : k = key <;> simp [get?, h, ih]

namespace Data

lemma get?_given {α : Type} (key name : String) (f : α → Data) (x : Option α) :
    get? key (given name f x) = if name = key then x.map f else none := by
  cases x <;> simp [given, get?]

@[simp] lemma asText?_text (s : String) : (text s).asText? = some s := rfl

@[simp] lemma asInt?_int (n : Int) : (int n).asInt? = some n := rfl

@[simp] lemma asTexts?_texts (ss : List String) : (texts ss).asTexts? = some ss :=
  mapM_map_pure asText?_text ss

@[simp] lemma asTextRecord?_textRecord (fs : List (String × String)) :
    (textRecord fs).asTextRecord? = some fs := by
  rw [textRecord, asTextRecord?, record?, Option.bind_some]
  exact mapM_map_pure (by simp) fs

/-- What `f` writes is never null, and `as?` reads it. -/
def Inverts {α : Type} (as? : Data → Option α) (f : α → Data) : Prop :=
  ∀ a, f a ≠ .null ∧ as? (f a) = some a

/-- A field that was given is read back, and one that was not is missing. -/
lemma maybe_given {α : Type} {as? : Data → Option α} {f : α → Data} (h : Inverts as? f)
    {name : String} {fields : List (String × Data)} {x : Option α}
    (hget : get? name fields = x.map f) : maybe as? name fields = some x := by
  cases x with
  | none => simp [maybe, hget]
  | some a =>
    obtain ⟨hnull, hread⟩ := h a
    rw [maybe, hget, Option.map_some]
    generalize f a = d at hnull hread
    split <;> simp_all

lemma inverts_text : Inverts asText? text := fun _ => ⟨nofun, rfl⟩

lemma inverts_int : Inverts asInt? int := fun _ => ⟨nofun, rfl⟩

lemma inverts_float : Inverts asDouble? float := fun _ => ⟨nofun, rfl⟩

lemma inverts_texts : Inverts asTexts? texts := fun ss => ⟨nofun, asTexts?_texts ss⟩

end Data

/-! ### Headers, instruments and groups -/

lemma Header.ofData?_toData (h : Header) : Header.ofData? h.toData = some h := by
  simp [Header.ofData?, Header.toData, Data.record?, Header.ofFields?, Data.orElse, get?,
    Data.asPair?]

lemma DrumNote.ofData?_toData (d : DrumNote) : DrumNote.ofData? d.toData = some d := by
  cases d <;> rfl

lemma inverts_drumMap : Data.Inverts drumMap? drumMapData := fun m =>
  ⟨nofun, mapM_map_pure (fun p => by simp [DrumNote.ofData?_toData]) m⟩

lemma Style.ofData?_text (s : Style) : Style.ofData? (.text s.text) = some s := by
  cases s <;> decide

lemma Instrument.ofData?_toData (i : Instrument) : Instrument.ofData? i.toData = some i := by
  rw [Instrument.ofData?, Instrument.toData, Data.record?, Option.bind_some]
  generalize hfs : _ ++ Data.given "pan" _ _ = fs
  obtain ⟨hid, hlabel, hstyle⟩ : get? "id" fs = some (.text i.id) ∧
      get? "label" fs = some (.text i.label) ∧ get? "style" fs = some (.text i.style.text) := by
    simp [← hfs, get?_append, Data.get?_given, get?]
  obtain ⟨hgroup, hclef, htranspose, htuning, hmap, hpatch, hvolume, hpan⟩ :
      get? "group" fs = i.group.map .text ∧ get? "clef" fs = i.clef.map .text ∧
      get? "transpose" fs = i.transpose.map .int ∧ get? "tuning" fs = i.tuning.map .texts ∧
      get? "map" fs = i.map.map drumMapData ∧ get? "patch" fs = i.patch.map .text ∧
      get? "volume" fs = i.volume.map .float ∧ get? "pan" fs = i.pan.map .float := by
    simp [← hfs, get?_append, Data.get?_given, get?]
  have htexts := Data.maybe_given Data.inverts_texts htuning
  have hdrums := Data.maybe_given inverts_drumMap hmap
  simp [Instrument.ofFields?, Data.need, Data.orElse, hid, hlabel, hstyle, Style.ofData?_text,
    Data.maybe_given Data.inverts_text hgroup, Data.maybe_given Data.inverts_text hclef,
    Data.maybe_given Data.inverts_int htranspose, htexts, hdrums,
    Data.maybe_given Data.inverts_text hpatch, Data.maybe_given Data.inverts_float hvolume,
    Data.maybe_given Data.inverts_float hpan]

lemma Group.ofData?_toData (g : Group) : Group.ofData? g.toData = some g := by
  simp [Group.ofData?, Group.toData, Data.record?, Data.need, Data.orElse, get?]

/-! ### Pitches -/

lemma mem_decimal {n : Int} {c : Char} (h : c ∈ (decimal n).toList) :
    c = '-' ∨ isDigit c = true := by
  rw [decimal, String.toList_ofList] at h
  split at h
  · exact (List.mem_cons.mp h).imp_right isDigit_of_mem_digitChars
  · exact .inr (isDigit_of_mem_digitChars h)

lemma dropWhile_cents (n : Int) :
    (((decimal n).toList ++ ['c']).reverse.dropWhile (· == 'c')).reverse = (decimal n).toList := by
  have hnot : ∀ c ∈ (decimal n).toList.reverse, (c == 'c') = false := by
    intro c hc
    rcases mem_decimal (List.mem_reverse.mp hc) with rfl | hdigit
    · rfl
    · simp only [beq_eq_false_iff_ne]
      rintro rfl
      exact absurd hdigit (by decide)
  have hdrop : (decimal n).toList.reverse.dropWhile (· == 'c') = (decimal n).toList.reverse := by
    cases hrev : (decimal n).toList.reverse with
    | nil => rfl
    | cons c cs => rw [List.dropWhile_cons_of_neg (by simp [hnot c (by simp [hrev])])]
  simp [hdrop]

namespace Pitch

lemma Tempered.text_isOk_iff {p : Pitch} (h : p.Tempered) :
    (∃ s, p.text = .ok s) ↔ p.midi.natAbs < Nat.pow 10 digitLimit := by
  constructor
  · rintro ⟨_, h⟩
    obtain ⟨m, hm, -⟩ := bind_eq_ok.mp h
    exact (writeInt_eq_ok.mp hm).1
  · intro hsize
    have hm : writeInt p.midi = .ok (decimal p.midi) := writeInt_eq_ok.mpr ⟨hsize, rfl⟩
    have hc : writeInt 50 = .ok "50" := by decide +kernel
    rcases h with h | h
    · exact ⟨_, by rw [text, hm, ok_bind, if_pos h]; rfl⟩
    · exact ⟨_, by rw [text, hm, ok_bind, h, if_neg (by decide), hc]; rfl⟩

lemma ofText_text {p : Pitch} {s : String} (h : p.text = .ok s) : ofText s = .ok p := by
  have hplus : '+' ∉ (decimal p.midi).toList := fun hmem => by
    rcases mem_decimal hmem with h | h <;> exact absurd h (by decide)
  obtain ⟨m, hm, h⟩ := bind_eq_ok.mp h
  obtain ⟨hsize, rfl⟩ := writeInt_eq_ok.mp hm
  split at h
  · rename_i hcents
    cases h
    have hlist : ("midi:" ++ decimal p.midi).toList =
        'm' :: 'i' :: 'd' :: 'i' :: ':' :: (decimal p.midi).toList := by
      simp
    simp only [ofText, hlist, cutAt_of_not_mem hplus, String.ofList_toList, readInt_decimal hsize,
      ok_bind, ← hcents]
    rfl
  · obtain ⟨c, hc, h⟩ := bind_eq_ok.mp h
    obtain ⟨hcsize, rfl⟩ := writeInt_eq_ok.mp hc
    cases h
    have hlist : ("midi:" ++ decimal p.midi ++ "+" ++ decimal p.cents ++ "c").toList =
        'm' :: 'i' :: 'd' :: 'i' :: ':' ::
          ((decimal p.midi).toList ++ '+' :: ((decimal p.cents).toList ++ ['c'])) := by
      simp
    simp only [ofText, hlist, cutAt_append_of_not_mem hplus, String.ofList_toList,
      readInt_decimal hsize, ok_bind, dropWhile_cents, readInt_decimal hcsize]
    rfl

end Pitch

/-! ### Durations -/

/-- The duration that is read for a written one. -/
def reread (q : Rat) : Rat := nearest ticksPerQuarter.toNat ((Double.ofRat q).value?.getD 0)

lemma ofDouble_of_isFinite {x : Double} (h : x.isFinite = true) :
    ofDouble x = .ok (x.value?.getD 0) := by
  cases x with
  | finite negative u => simp only [ofDouble, Double.value?, Option.getD_some]
  | infinite negative => cases h
  | nan => cases h

lemma durationOf_float {q : Rat} {x : Double} (h : finiteDouble q = .ok x) :
    durationOf (.float x) = .ok (reread q) := by
  have hfraction : fractionOf (.float x) = ofDouble x := rfl
  rw [finiteDouble] at h
  split at h
  · rename_i hfinite
    rw [← Except.ok.inj h] at hfraction ⊢
    rw [durationOf, hfraction, ofDouble_of_isFinite hfinite]
    rfl
  · cases h

/-- What is read lies near the double, and the double near the duration. -/
lemma reread_isNearest {q : Rat} (h0 : 0 ≤ q) (hq : q < 8) :
    ∃ x : ℚ, 0 ≤ x ∧ |x - q| ≤ 1 / 2 ^ 51 ∧ IsNearest 1920 x (reread q) := by
  obtain ⟨u, hu, hclose⟩ := Double.ofRat_close (k := 3) h0 (by norm_num; exact hq) (by decide)
  have hvalue : (Double.ofRat q).value?.getD 0 = mkRat u Double.one := by
    rw [hu]
    simp only [Double.value?, Bool.false_eq_true, if_false, Option.getD_some]
  refine ⟨mkRat u Double.one, Rat.mkRat_nonneg (Int.natCast_nonneg u) _,
    hclose.trans (by norm_num), ?_⟩
  rw [reread, hvalue]
  exact nearest_isNearest (by decide) _

lemma finiteDouble_isOk {q : Rat} (h0 : 0 ≤ q) (hq : q < 8) : ∃ x, finiteDouble q = .ok x := by
  obtain ⟨u, hu, -⟩ := Double.ofRat_close (k := 3) h0 (by norm_num; exact hq) (by decide)
  exact ⟨_, by rw [finiteDouble, hu]; rfl⟩

lemma reread_nonneg {q : Rat} (h0 : 0 ≤ q) (hq : q < 8) : 0 ≤ reread q := by
  obtain ⟨x, hx, -, hnear⟩ := reread_isNearest h0 hq
  exact hnear.nonneg (by decide) hx

/-- **A duration comes back if and only if its denominator is small.** -/
lemma reread_eq_iff {q : Rat} (h0 : 0 ≤ q) (hq : q < 8) : reread q = q ↔ q.den ≤ 1920 := by
  obtain ⟨x, -, hclose, hnear⟩ := reread_isNearest h0 hq
  constructor
  · intro h
    exact h ▸ hnear.den_le
  · intro hden
    refine hnear.eq_of_close hden (hclose.trans_lt ?_)
    norm_num

/-! ### Events -/

lemma EventKind.kindOf_text (k : EventKind) (fault : String → Fault) :
    kindOf EventKind.ofText? fault (.text k.text) = .ok k := by
  cases k <;> rfl

lemma ModifierKind.kindOf_text (k : ModifierKind) (fault : String → Fault) :
    kindOf ModifierKind.ofText? fault (.text k.text) = .ok k := by
  cases k <;> rfl

namespace Stored

lemma Modifier.ofData_toData (m : Modifier) : Modifier.ofData m.toData = .ok m := by
  simp [Modifier.ofData, Modifier.toData, fieldsOf, require, itemsOf, get?,
    ModifierKind.kindOf_text, Data.items]

def Event.reread (e : Event) : Event := { e with duration := Partitura.reread e.duration }

/-- The fields that an event is written as. -/
structure Event.Written (e : Event) (fs : List (String × Data)) : Prop where
  kind : get? "kind" fs = some (.text e.kind.text)
  pitches : ∃ ss, e.pitches.mapM Partitura.Pitch.text = .ok ss ∧
    get? "pitches" fs = some (.texts ss)
  duration : ∃ x, finiteDouble e.duration = .ok x ∧ get? "duration" fs = some (.float x)
  start : get? "tick_start" fs = some e.start
  stop : get? "tick_end" fs = some e.stop
  velocity : get? "velocity" fs = some e.velocity
  instrument : get? "instrument_id" fs = some e.instrument
  voice : get? "voice_id" fs = some e.voice
  modifiers : itemsOf "modifiers" fs = .ok (e.modifiers.map Modifier.toData)
  measure : (get? "measure" fs).getD .null = e.measure

lemma Event.toData_written {e : Event} {d : Data} (h : e.toData = .ok d) :
    ∃ fs, d = .record fs ∧ e.Written fs := by
  obtain ⟨ss, hpitches, h⟩ := bind_eq_ok.mp h
  obtain ⟨x, hx, h⟩ := bind_eq_ok.mp h
  obtain rfl := Except.ok.inj h
  refine ⟨_, rfl, ?_⟩
  -- with or without modifiers, with or without a measure
  split <;> rename_i hms <;> simp only [List.isEmpty_iff] at hms <;>
    split <;> rename_i hmeasure <;> constructor <;>
    simp [itemsOf, get?, hpitches, hx, hms, hmeasure, Data.items]

lemma Event.Written.ofData {e : Event} {fs : List (String × Data)} (h : e.Written fs) :
    Event.ofData (.record fs) = e.reread.check := by
  obtain ⟨ss, hss, hpitches⟩ := h.pitches
  obtain ⟨x, hx, hduration⟩ := h.duration
  have hpitch : (ss.map Data.text).mapM pitchOf = .ok e.pitches := by
    have hread := mapM_eq_ok_map (fun p _ s hs => Partitura.Pitch.ofText_text hs) hss
    rw [List.map_id'] at hread
    rw [List.mapM_map]
    exact hread
  have hmods : (e.modifiers.map Modifier.toData).mapM Modifier.ofData = .ok e.modifiers :=
    mapM_map_pure Modifier.ofData_toData e.modifiers
  have hitems : itemsOf "pitches" fs = .ok (ss.map .text) := by rw [itemsOf, hpitches]; rfl
  simp only [Event.ofData, fieldsOf, ok_bind, require, h.kind, EventKind.kindOf_text, hitems,
    hpitch, hduration, durationOf_float hx, h.start, h.stop, h.velocity, h.instrument, h.voice,
    h.modifiers, hmods, h.measure, reread]

lemma Score.ofData_toData {s : Score} {d : Data} (h : s.toData = .ok d)
    (hcheck : ∀ e ∈ s.timeline, e.reread.check = .ok e.reread) :
    Score.ofData d = .ok { s with timeline := s.timeline.map Event.reread } := by
  obtain ⟨events, hevents, h⟩ := bind_eq_ok.mp h
  obtain rfl := Except.ok.inj h
  have htimeline : events.mapM Event.ofData = .ok (s.timeline.map Event.reread) := by
    refine mapM_eq_ok_map (fun e he d hd => ?_) hevents
    obtain ⟨fs, rfl, hfs⟩ := Event.toData_written hd
    rw [hfs.ofData, hcheck e he]
  have hinstruments : (s.instruments.map Instrument.toData).mapM (valid <| Instrument.ofData? ·) =
      .ok s.instruments :=
    mapM_map_pure (fun i => by rw [Instrument.ofData?_toData]; rfl) s.instruments
  have hgroups : (s.groups.map Group.toData).mapM (valid <| Group.ofData? ·) = .ok s.groups :=
    mapM_map_pure (fun g => by rw [Group.ofData?_toData]; rfl) s.groups
  generalize hfs : [("meta", s.header.toData), _, _, _, _, _] = fs
  have hheader : valid (Data.orElse Header.ofData? "meta" {} fs) = .ok s.header := by
    simp [← hfs, Data.orElse, get?, Header.ofData?_toData, valid]
  obtain ⟨hinstrument, hgroup, hevent⟩ :
      itemsOf "instruments" fs = .ok (s.instruments.map Instrument.toData) ∧
      itemsOf "groups" fs = .ok (s.groups.map Group.toData) ∧
      itemsOf "timeline" fs = .ok events := by
    simp [← hfs, itemsOf, get?, Data.items]
  obtain ⟨hticks, hquarter⟩ : get? "duration_ticks" fs = some s.durationTicks ∧
      get? "ticks_per_quarter" fs = some s.ticksPerQuarter := by
    simp [← hfs, get?]
  simp only [Score.ofData, pure_bind, hheader, ok_bind, hinstrument, hinstruments, hgroup,
    hgroups, hevent, htimeline, hticks, hquarter, Option.getD_some]
  rfl

end Stored

/-! ### Compiled scores -/

namespace Event

variable {is : List Instrument} {e : Event}

lemma Sound.duration_nonneg (h : e.Sound is) : 0 ≤ e.duration := by
  cases hgrace : e.isGrace with
  | true => exact (h.grace.mpr hgrace).ge
  | false => exact (h.value hgrace).pos.le

lemma Sound.duration_lt (h : e.Sound is) : e.duration < 8 := by
  cases hgrace : e.isGrace with
  | true =>
    rw [h.grace.mpr hgrace]
    norm_num
  | false =>
    obtain ⟨n, hn, hq⟩ := h.value hgrace
    have hn' : (1 : ℚ) ≤ n := by exact_mod_cast hn
    rcases hq with hq | hq | hq <;>
    · rw [hq, div_lt_iff₀ (by linarith)]
      linarith

lemma Sound.check_reread (h : e.Sound is) : e.stored.reread.check = .ok e.stored.reread := by
  have hstop : ¬e.stop < e.start := by
    have hnonneg : 0 ≤ ⌊1920 * e.duration⌋ := Int.floor_nonneg.mpr (by linarith [h.duration_nonneg])
    rw [h.stop]
    omega
  have hless : e.stored.reread.stop.less e.stored.reread.start = .ok false := by
    simp [Stored.Event.reread, stored, Data.less, Data.ordered, Data.orderedScalars,
      Scalar.quantity?, Scalar.whole?, Quantity.less, hstop]
  have heq : e.stored.reread.duration = reread e.duration := by
    simp only [Stored.Event.reread, stored]
  have hduration : ¬e.stored.reread.duration < 0 := by
    rw [heq, not_lt]
    exact reread_nonneg h.duration_nonneg h.duration_lt
  rw [Stored.Event.check, hless, ok_bind, if_neg Bool.false_ne_true, if_neg hduration]
  rfl

lemma Sound.toData_isOk_iff (h : e.Sound is) :
    (∃ d, e.toData = .ok d) ↔ ∀ p ∈ e.pitches, p.midi.natAbs < Nat.pow 10 digitLimit := by
  have htext : (∃ ss, e.pitches.mapM Pitch.text = .ok ss) ↔
      ∀ p ∈ e.pitches, p.midi.natAbs < Nat.pow 10 digitLimit :=
    mapM_isOk_iff.trans (forall₂_congr fun p hp => (h.tempered p hp).text_isOk_iff)
  rw [← htext]
  constructor
  · rintro ⟨d, hd⟩
    obtain ⟨ss, hss, -⟩ := bind_eq_ok.mp hd
    exact ⟨ss, hss⟩
  · rintro ⟨ss, hss⟩
    obtain ⟨x, hx⟩ := finiteDouble_isOk h.duration_nonneg h.duration_lt
    exact ⟨_, bind_eq_ok.mpr ⟨ss, hss, bind_eq_ok.mpr ⟨x, hx, rfl⟩⟩⟩

end Event

lemma Score.toData_isOk_iff {s : Score} :
    (∃ d, s.toData = .ok d) ↔ ∀ e ∈ s.timeline, ∃ d, e.toData = .ok d := by
  have hevents : s.stored.timeline.mapM Stored.Event.toData = s.timeline.mapM Event.toData :=
    List.mapM_map
  rw [← mapM_isOk_iff, ← hevents]
  constructor
  · rintro ⟨d, hd⟩
    obtain ⟨ds, hds, -⟩ := bind_eq_ok.mp hd
    exact ⟨ds, hds⟩
  · rintro ⟨ds, hds⟩
    exact ⟨_, bind_eq_ok.mpr ⟨ds, hds, rfl⟩⟩

lemma Score.eq_stored_iff {s : Score} :
    { s.stored with timeline := s.stored.timeline.map Stored.Event.reread } = s.stored ↔
      ∀ e ∈ s.timeline, reread e.duration = e.duration := by
  have hevent (e : Event) : e.stored.reread = e.stored ↔ reread e.duration = e.duration := by
    simp only [Stored.Event.reread, Event.stored, Stored.Event.mk.injEq, true_and, and_true]
  have htimeline : s.stored.timeline.map Stored.Event.reread = s.stored.timeline ↔
      ∀ e ∈ s.timeline, e.stored.reread = e.stored := by
    simp only [Score.stored, List.map_map, List.map_inj_left, Function.comp_apply]
  rw [← forall₂_congr fun e _ => hevent e, ← htimeline]
  exact ⟨congrArg Stored.Score.timeline, fun h => by rw [h]⟩

/-- **A compiled score comes back unchanged if and only if its durations have denominators up to
1920.** It can be written if and only if its pitches can, and nothing but durations ever differs. -/
theorem ofData_toData_eq_iff {o : Options} {l l' : Library} {source : String} {compiled : Compiled}
    (h : compile o l source = (.ok compiled, l')) :
    ((∃ d, compiled.score.toData = .ok d) ↔ ∀ e ∈ compiled.score.timeline, ∀ p ∈ e.pitches,
      p.midi.natAbs < Nat.pow 10 digitLimit) ∧
    ∀ d, compiled.score.toData = .ok d → ∃ s, Stored.Score.ofData d = .ok s ∧
      (s = compiled.score.stored ↔ ∀ e ∈ compiled.score.timeline, e.duration.den ≤ 1920) ∧
      s = { compiled.score.stored with
        timeline := compiled.score.stored.timeline.map Stored.Event.reread } := by
  obtain ⟨c, -, hc, rfl⟩ := compile_eq_ok h
  have hsound : ∀ e ∈ c.score.timeline, e.Sound c.score.instruments := hc.wellFormed.events
  dsimp only
  generalize c.score = score at hsound ⊢
  refine ⟨Score.toData_isOk_iff.trans (forall₂_congr fun e he => (hsound e he).toData_isOk_iff),
    fun d hd => ⟨_, Stored.Score.ofData_toData hd ?_, ?_, rfl⟩⟩
  · intro e he
    obtain ⟨e, he', rfl⟩ := List.mem_map.mp he
    exact (hsound e he').check_reread
  · rw [Score.eq_stored_iff]
    exact forall₂_congr fun e he =>
      reread_eq_iff (hsound e he).duration_nonneg (hsound e he).duration_lt

def oneNote (length : String) : String := "def p measure 1 \x7b p: c:" ++ length ++ " \x7d"

lemma compile_oneNote (length : String) (q : Rat)
    (h : Run.passes (Run.declareAll (readDocument (tokenize (oneNote length)))) (.start {} .shipped)
      (fun _ c => c.timeline.newest.map (fun e => (e.pitches, e.duration)) ==
          [([Pitch.nominal], q)] &&
        c.timeline.newest.all fun e => (writeInt e.stop).isOk) = true) :
    ∃ compiled l e, compile {} .shipped (oneNote length) = (.ok compiled, l) ∧
      compiled.score.timeline = [e] ∧ e.pitches = [.nominal] ∧ e.duration = q := by
  obtain ⟨c, hnotes, hcompile⟩ := exists_compile (o := {}) rfl (oneNote length)
    (fun c => c.timeline.newest.map (fun e => (e.pitches, e.duration)) == [([.nominal], q)]) h
  rw [beq_iff_eq, List.map_eq_singleton_iff] at hnotes
  obtain ⟨e, hnewest, hnote⟩ := hnotes
  have hperm := c.timeline.sorted_isStableSort.perm
  rw [Timeline.events, hnewest, List.reverse_singleton, List.perm_singleton] at hperm
  exact ⟨_, _, e, hcompile, hperm, congrArg Prod.fst hnote, congrArg Prod.snd hnote⟩

theorem ofData_toData_eq_iff_oneNote :
    (∃ compiled l d, compile {} .shipped (oneNote "7680") = (.ok compiled, l) ∧
      compiled.score.toData = .ok d ∧ Stored.Score.ofData d = .ok compiled.score.stored) ∧
    ∃ compiled l d s, compile {} .shipped (oneNote "7684") = (.ok compiled, l) ∧
      compiled.score.toData = .ok d ∧ Stored.Score.ofData d = .ok s ∧
      s ≠ compiled.score.stored := by
  have hsize : Pitch.nominal.midi.natAbs < Nat.pow 10 digitLimit := by decide +kernel
  constructor
  · obtain ⟨compiled, l, e, hcompile, htimeline, hpitches, hduration⟩ :=
      compile_oneNote "7680" (1 / 1920) (by decide +kernel)
    obtain ⟨hok, hread⟩ := ofData_toData_eq_iff hcompile
    rw [htimeline, List.forall_mem_singleton, hpitches, List.forall_mem_singleton] at hok
    obtain ⟨d, hd⟩ := hok.mpr hsize
    obtain ⟨s, hs, hiff, -⟩ := hread d hd
    rw [htimeline, List.forall_mem_singleton, hduration] at hiff
    obtain rfl := hiff.mpr (by decide +kernel)
    exact ⟨compiled, l, d, hcompile, hd, hs⟩
  · obtain ⟨compiled, l, e, hcompile, htimeline, hpitches, hduration⟩ :=
      compile_oneNote "7684" (1 / 1921) (by decide +kernel)
    obtain ⟨hok, hread⟩ := ofData_toData_eq_iff hcompile
    rw [htimeline, List.forall_mem_singleton, hpitches, List.forall_mem_singleton] at hok
    obtain ⟨d, hd⟩ := hok.mpr hsize
    obtain ⟨s, hs, hiff, -⟩ := hread d hd
    rw [htimeline, List.forall_mem_singleton, hduration] at hiff
    exact ⟨compiled, l, d, s, hcompile, hd, hs, fun heq => absurd (hiff.mp heq) (by decide +kernel)⟩

end Partitura
