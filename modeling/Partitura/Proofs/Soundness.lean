import Partitura.Compile
import Partitura.Proofs.Attributes
import Partitura.Proofs.Reading
import Partitura.Proofs.Rendering

/-!
Every state of a compilation is sound, and it can only be left by a fault of a limit.

`Context.Sound` is the invariant: settings in range, macros made of the tokens of the text,
tunings that fail only as the library does, cursors with lengths that can be written, and sound
events, as many as the timeline has given up room for. Each declaration keeps it, and
`LimitFault` with the faults of the library are all that a declaration can end with.
-/

namespace Partitura

open Number Text Run

variable {P : Type}

/-! ### The library -/

namespace Library

def kitList (l : Library) : Except Fault (List (String × Kit)) :=
  match l.kits with
  | some kits => .ok kits
  | none => loadKits l.shelf.kits

def tuningList (l : Library) : Except Fault Tunings :=
  match l.tunings with
  | some tunings => .ok tunings
  | none => Tunings.load l.shelf.tunings

lemma kit?_eq (l : Library) (name : String) :
    l.kit? name = (fun kits => (get? name kits, { l with kits := some kits })) <$> l.kitList := by
  obtain ⟨shelf, _ | kits, tunings⟩ := l
  · cases h : loadKits shelf.kits <;>
      simp [kit?, allKits, kitList, h, pure, Except.pure]
  · simp [kit?, allKits, kitList, pure, Except.pure]

lemma tuning?_eq (l : Library) (name : String) :
    l.tuning? name =
      (fun tunings => (get? name tunings.list, { l with tunings := some tunings })) <$>
        l.tuningList := by
  obtain ⟨shelf, kits, _ | tunings⟩ := l
  · cases h : Tunings.load shelf.tunings <;>
      simp [tuning?, allTunings, tuningList, h, pure, Except.pure]
  · simp [tuning?, allTunings, tuningList, pure, Except.pure]

/-- A fault that comes from the library: of a lookup, or of a string of a tuning in it. -/
inductive Raises (l : Library) (f : Fault) : Prop
  | kits (h : l.kitList = .error f)
  | tunings (h : l.tuningList = .error f)
  | strings {tunings : Tunings} (h : l.tuningList = .ok tunings)
      {name : String} {t : Tuning} (ht : get? name tunings.list = some t) {s : String}
      (hs : s ∈ t.strings) (hf : Pitch.read s Pitch.defaultOctave = .error f)

/-- Two libraries in which every lookup finds the same. -/
def Like (l l' : Library) : Prop := l.kitList = l'.kitList ∧ l.tuningList = l'.tuningList

end Library

/-! ### Sound events -/

structure Event.Sound (instruments : List Instrument) (e : Event) : Prop where
  measure : ∃ m, e.measure = some m ∧ 1 ≤ m
  start : 0 ≤ e.start
  stop : e.stop = e.start + ⌊1920 * e.duration⌋
  grace : e.duration = 0 ↔ e.isGrace = true
  value : e.isGrace = false → NoteValue e.duration
  note : e.kind = .note → e.pitches.length = 1
  rest : e.kind = .rest → e.pitches = []
  tempered : ∀ p ∈ e.pitches, p.Tempered
  instrument : ∃ i ∈ instruments, i.id = e.instrument

lemma Event.Sound.mono {is js : List Instrument} {e : Event} (h : e.Sound is) (hsub : is ⊆ js) :
    e.Sound js :=
  { h with
    instrument := by
      obtain ⟨i, hi, hid⟩ := h.instrument
      exact ⟨i, hsub hi, hid⟩ }

lemma Pitch.nominal_tempered : Pitch.nominal.Tempered := .inl rfl

/-- Symbols in ASCII sound as pitches of the instrument, as many as there are symbols. -/
lemma hear_cases (i : Instrument) (octave : Int) {texts : List String}
    (h : ∀ s ∈ texts, IsAscii s) :
    (∃ r, hear i octave texts = .ok r ∧ r.pitches.length = texts.length ∧
        ∀ p ∈ r.pitches, p.Tempered) ∨
      ∃ f, hear i octave texts = .error f ∧ (f.IsTooLong ∨ i.Mistuned f) := by
  induction texts generalizing octave with
  | nil => exact .inl ⟨_, rfl, rfl, by simp⟩
  | cons s rest ih =>
    simp only [List.forall_mem_cons] at h
    rcases ih (resolvePitch i octave s).2 h.2 with ⟨r, hr, hlen, htemp⟩ | ⟨f, hf, hcause⟩
    · rcases resolvePitch_cases i octave h.1 with hp | ⟨p, hp, ht⟩ | ⟨f, hp, hcause⟩
      · refine .inl ⟨⟨.nominal :: r.pitches, r.octave, _⟩, by simp [hear, hp, hr]; rfl, ?_, ?_⟩
        · simp [hlen]
        · simpa using ⟨Pitch.nominal_tempered, htemp⟩
      · refine .inl ⟨{ r with pitches := p :: r.pitches },
          by simp [hear, hp, hr, pure, Except.pure], ?_, ?_⟩
        · simp [hlen]
        · simpa using ⟨ht, htemp⟩
      · exact .inr ⟨f, by simp [hear, hp], hcause⟩
    · rcases resolvePitch_cases i octave h.1 with hp | ⟨p, hp, -⟩ | ⟨g, hp, hcause'⟩
      · exact .inr ⟨f, by simp [hear, hp, hf], hcause⟩
      · exact .inr ⟨f, by simp [hear, hp, hf], hcause⟩
      · exact .inr ⟨g, by simp [hear, hp], hcause'⟩

structure Run.Stage.Sound (s : Stage) : Prop where
  base : 0 ≤ s.base
  measure : ∃ m, s.measure = some m ∧ 1 ≤ m

lemma WrittenEvent.hearing_cases {e : WrittenEvent P} (he : e.Shaped) (i : Instrument)
    (octave : Int) :
    (∃ h, e.hearing i octave = .ok h ∧ (e.kind = .note → h.pitches.length = 1) ∧
        (e.kind = .rest → h.pitches = []) ∧ ∀ p ∈ h.pitches, p.Tempered) ∨
      ∃ f, e.hearing i octave = .error f ∧ (f.IsTooLong ∨ i.Mistuned f) := by
  unfold hearing kind
  by_cases hrest : e.isRest
  · exact .inl ⟨_, by simp [hrest]; rfl, by simp [hrest], by simp, by simp⟩
  · simp only [hrest, Bool.false_eq_true, if_false]
    rcases hear_cases i octave he.ascii with ⟨r, hr, hlen, htemp⟩ | hfail
    · refine .inl ⟨r, hr, fun hkind => ?_, fun hkind => ?_, htemp⟩
      · cases hchord : e.chord with
        | true => simp [hchord] at hkind
        | false =>
          obtain ⟨s, hs⟩ := he.single hchord
          simp [hlen, hs]
      · split at hkind <;> cases hkind
    · exact .inr hfail

lemma Length.Writable.after {length : Length} (h : length.Writable) {old : Rat}
    (hold : NoteValue old) : NoteValue (length.after old) := by
  cases length <;> assumption

/-- A shaped event renders to a sound one, or a limit is met in its text, in the tuning of its
instrument or in its volume. -/
lemma WrittenEvent.render_cases {e : WrittenEvent P} (he : e.Shaped) {s : Stage} (hs : s.Sound)
    {cursor : Cursor} (hcursor : NoteValue cursor.duration) {offset : Int} (hoffset : 0 ≤ offset)
    {instruments : List Instrument} (hi : s.instrument ∈ instruments) :
    (∃ r, e.render s cursor offset = .ok r ∧ r.event.Sound instruments ∧ 0 ≤ r.ticks ∧
        NoteValue r.duration) ∨
      ∃ f, e.render s cursor offset = .error f ∧ (f.IsTooLong ∨ s.instrument.Mistuned f ∨
        f = .quotientTooLarge ∧ ∃ m ∈ e.modifiers, m.TooLoud) := by
  have hkept := he.length.after hcursor
  unfold render
  rcases hearing_cases he s.instrument cursor.octave with
    ⟨h, hh, hnote, hrest, htemp⟩ | ⟨f, hf, hcause⟩
  swap
  · exact .inr ⟨f, by simp [hf], by tauto⟩
  have hdur : 0 ≤ if e.isGrace then 0 else e.length.after cursor.duration := by
    split
    · exact le_refl _
    · exact hkept.pos.le
  simp only [hh, ok_bind, Duration.make_of_nonneg hdur]
  rcases hv : Velocity.ofModifiers e.modifiers with f | v
  · obtain ⟨hf, hm⟩ := Velocity.ofModifiers_fault hv
    exact .inr ⟨f, by simp, .inr (.inr ⟨hf, hm⟩)⟩
  have hticks := Duration.ticks_nonneg ⟨_, hdur⟩
  have hfloor := Duration.ticks_eq_floor ⟨_, hdur⟩
  simp only [ok_bind]
  rw [Event.check, if_neg (by simp only; omega), if_neg (by simpa using hdur)]
  refine .inl ⟨_, rfl, ?_, ?_, hkept⟩
  · refine ⟨hs.measure, by have := hs.base; simp only; omega, by simp only [hfloor], ?_, ?_, hnote,
      hrest, htemp, s.instrument, hi, rfl⟩
    · show (if e.isGrace then 0 else _) = (0 : Rat) ↔ e.isGrace = true
      by_cases hg : e.isGrace
      · simp [hg]
      · simpa [hg] using hkept.pos.ne'
    · show e.isGrace = false → NoteValue (if e.isGrace then 0 else _)
      intro hg
      simpa [hg] using hkept
  · simp only [Rendering.ticks]
    omega

/-! ### Sound states -/

variable {us : List (Token P)} {l : Library} {o : Options}

/-- The faults of limits that a text can meet: a numeral with too many digits, to be read or to
be written; a volume that is too large to be divided; an accidental with a long s in a quoted
row of strings. -/
inductive LimitFault (us : List (Token P)) : Fault → Prop
  | numeral {n : Nat} (long : digitLimit < n) : LimitFault us (.numeralTooLong n)
  | number : LimitFault us .numberTooLong
  | volume {e : WrittenEvent P} {m : Modifier} (read : Reads us (.ok e)) (mem : m ∈ e.modifiers)
      (loud : m.TooLoud) : LimitFault us .quotientTooLarge
  | tuning {t : Token P} {s note : String} {f : Fault} (mem : t ∈ us)
      (quoted : t.lexeme = .quoted s) (row : isPitchRow s = true) (string : note ∈ pitchRow s)
      (spelled : f.IsLongS note) : LimitFault us f

lemma LimitFault.of_isTooLong {f : Fault} (h : f.IsTooLong) : LimitFault us f := by
  obtain ⟨n, hn, rfl⟩ := h
  exact .numeral hn

def MayFail (us : List (Token P)) (l : Library) (f : Fault) : Prop := LimitFault us f ∨ l.Raises f

structure Context.Sound (us : List (Token P)) (l : Library) (o : Options) (c : Context P) :
    Prop where
  options : c.options = o
  library : c.library.Like l
  tempo : 1 ≤ c.header.tempo
  time : 1 ≤ c.header.time.1 ∧ 1 ≤ c.header.time.2
  macros : ∀ p ∈ c.macros, p.2.body ⊆ us
  tunings : ∀ i ∈ c.instruments, ∀ f, i.Mistuned f → l.Raises f
  cursors : ∀ p ∈ c.cursors, NoteValue p.2.duration
  room : c.timeline.newest.length + c.timeline.room = o.maxEvents
  events : ∀ e ∈ c.timeline.newest, e.Sound c.instruments

namespace Context.Sound

variable {c : Context P}

lemma start : Context.Sound us l o (.start o l) where
  options := rfl
  library := ⟨rfl, rfl⟩
  tempo := (by decide : (1 : Int) ≤ 120)
  time := (by decide : (1 : Int) ≤ 4 ∧ (1 : Int) ≤ 4)
  macros := by simp [Context.start]
  tunings := by simp [Context.start]
  cursors := by simp [Context.start]
  room := by simp [Context.start]
  events := by simp [Context.start]

lemma cursor (h : c.Sound us l o) (key : VoiceKey) : NoteValue (c.cursor key).duration := by
  rw [Context.cursor]
  rcases hf : c.cursors.find? (·.1 == key) with _ | p
  · simpa [hf] using noteValue_one
  · simpa [hf] using h.cursors p (List.mem_of_find?_eq_some hf)

/-- Taking up a sound rendering. -/
lemma enter (h : c.Sound us l o) {key : VoiceKey} {t : Option (Token P)} {r : Rendering}
    (hr : r.event.Sound c.instruments) (hd : NoteValue r.duration) :
    (c.enter key t r).Sound us l o where
  options := by simpa using h.options
  library := by simpa using h.library
  tempo := by simpa using h.tempo
  time := by simpa using h.time
  macros := by simpa using h.macros
  tunings := by simpa using h.tunings
  cursors := by
    obtain ⟨tick, hcursors⟩ := c.enter_cursors key t r
    intro p hp
    rw [hcursors] at hp
    rcases mem_setCursor hp with hp | hp
    · rw [hp]; exact hd
    · exact h.cursors p hp
  room := by
    have := h.room
    rw [enter_timeline, Timeline.add]
    split
    · exact this
    · rename_i hroom
      simp only [List.length_cons]
      omega
  events := by
    rw [enter_timeline, enter_instruments, Timeline.add]
    split
    · exact h.events
    · simpa using ⟨hr, h.events⟩

end Context.Sound

/-! ### Settings -/

lemma readTempo?_pos {s : String} {n : Int} (h : readTempo? s = some n) : 0 < n := by
  simp only [readTempo?, Option.bind_eq_bind, Option.bind_eq_some_iff,
    Option.ite_none_right_eq_some, Option.some.injEq] at h
  obtain ⟨_, -, q, -, hpos, rfl⟩ := h
  exact hpos

lemma Header.apply_range {h : Header} (htempo : 1 ≤ h.tempo)
    (htime : 1 ≤ h.time.1 ∧ 1 ≤ h.time.2) (key value : String) :
    1 ≤ (h.apply key value).1.tempo ∧
      1 ≤ (h.apply key value).1.time.1 ∧ 1 ≤ (h.apply key value).1.time.2 := by
  simp only [apply]
  repeat' split
  all_goals first | exact ⟨htempo, htime⟩ | skip
  · rename_i n hn
    exact ⟨readTempo?_pos hn, htime⟩
  · rename_i t _
    exact ⟨htempo, t.numerator_pos, t.denominator_pos⟩

namespace Run

lemma report_keeps (issue : Issue) (t : Option (Token P)) :
    Keeps (Context.Sound us l o) (MayFail us l) (report issue t) fun _ => True :=
  fun _ hc => .ok { hc with } trivial

lemma applySetting_keeps (key value : String) (t : Option (Token P)) :
    Keeps (Context.Sound us l o) (MayFail us l) (applySetting key value t) fun _ => True := by
  intro c hc
  have hrange := Header.apply_range hc.tempo hc.time key value
  simp only [applySetting, eval_bind, eval_get, eval_modify, ok_bind]
  have hset : Context.Sound us l o { c with header := (c.header.apply key value).1 } :=
    { hc with tempo := hrange.1, time := hrange.2 }
  split
  · exact report_keeps _ t _ hset
  · exact .ok hset trivial

lemma applyHeader_keeps (b : HeaderBlock P) :
    Keeps (Context.Sound us l o) (MayFail us l) (applyHeader b) fun _ => True := by
  unfold applyHeader
  split
  · exact report_keeps _ _
  · exact Keeps.forM fun p _ => applySetting_keeps p.1.value p.2 (some p.1)

/-! ### Playing -/

/-- A sound state in which an instrument is defined. -/
def OnStage (us : List (Token P)) (l : Library) (o : Options) (i : Instrument) (c : Context P) :
    Prop :=
  c.Sound us l o ∧ i ∈ c.instruments

lemma play_keeps (hus : ∀ t ∈ us, t.Plain) {s : Stage} (hs : s.Sound) {offset : Int}
    (hoffset : 0 ≤ offset) {e : WrittenEvent P} (he : Reads us (.ok e)) :
    Keeps (OnStage us l o s.instrument) (MayFail us l) (play s offset e) (0 ≤ ·) := by
  rintro c ⟨hc, hi⟩
  rw [eval_play]
  rcases WrittenEvent.render_cases (he.shaped hus) hs (hc.cursor s.key) hoffset hi with
    ⟨r, hr, hevent, hticks, hd⟩ | ⟨f, hf, hlong | hmistuned | ⟨rfl, m, hm, hloud⟩⟩
  · rw [hr]
    exact .ok ⟨hc.enter hevent hd, by simpa using hi⟩ hticks
  · rw [hf]
    exact .error (.inl (.of_isTooLong hlong))
  · rw [hf]
    exact .error (.inr (hc.tunings _ hi f hmistuned))
  · rw [hf]
    exact .error (.inl (.volume he hm hloud))

lemma step_keeps (hus : ∀ t ∈ us, t.Plain) {s : Stage} (hs : s.Sound) {offset : Int}
    (hoffset : 0 ≤ offset) {step : Step P} (hstep : step.From us) :
    Keeps (OnStage us l o s.instrument) (MayFail us l) (Run.step s offset step) (0 ≤ ·) := by
  cases step with
  | play e =>
    refine (play_keeps hus hs hoffset hstep).bind fun ticks hticks => Keeps.pure ?_
    omega
  | expand =>
    refine (Keeps.modify ?_).bind fun _ _ => Keeps.pure hoffset
    exact fun c hc => ⟨{ hc.1 with }, hc.2⟩
  | refuse issue t =>
    intro c hc
    simp only [Run.step, eval_bind, eval_reportOnce, ok_bind, eval_pure]
    exact .ok ⟨{ hc.1 with }, hc.2⟩ hoffset
  | halt f => exact Keeps.throw (.inl (.of_isTooLong (hstep.isTooLong hus)))

lemma perform_keeps (hus : ∀ t ∈ us, t.Plain) {s : Stage} (hs : s.Sound)
    {items : List (Placed (Item P))} (hitems : ∀ p ∈ items, p.value.From us) :
    Keeps (OnStage us l o s.instrument) (MayFail us l) (perform s items) (0 ≤ ·) := by
  refine Keeps.get_bind fun c hc => Keeps.foldlM (le_refl 0) fun offset hoffset p hp => ?_
  have hfrom : p.value.From us := script_from hc.1.macros _ _ _ hitems p hp
  exact (step_keeps hus hs hoffset hfrom).placed

lemma playEntry_keeps (hus : ∀ t ∈ us, t.Plain) {base index : Int} (hbase : 0 ≤ base)
    (hindex : 1 ≤ index) {entry : Entry P} (hentry : entry.From us) :
    Keeps (Context.Sound us l o) (MayFail us l) (playEntry base (some index) entry)
      fun _ => True := by
  cases entry with
  | header b => exact applyHeader_keeps b
  | part id voices =>
    intro c hc
    simp only [playEntry, eval_bind, eval_get, ok_bind]
    rcases hi : c.instrument? id with _ | i
    · exact .ok hc trivial
    · have hplay : Keeps (OnStage us l o i) (MayFail us l)
          (playPart i voices base (some index)) fun _ => True :=
        Keeps.forM fun v hv =>
          (perform_keeps (s := ⟨i, v.voice, base, some index⟩) hus ⟨hbase, index, rfl, hindex⟩
            (hentry v hv)).discard
      exact (hplay c ⟨hc, List.mem_of_find?_eq_some hi⟩).imp (fun _ h => h.1) fun _ h => h

lemma signature_ticks_nonneg (t : TimeSignature) : 0 ≤ t.ticks := by
  have hq : 0 ≤ t.quarters := by
    have := t.numerator_pos
    unfold TimeSignature.quarters
    rw [Rat.mkRat_eq_div]
    positivity
  have hticks : 0 ≤ t.quarters * (ticksPerQuarter : Rat) := mul_nonneg hq (by decide)
  rw [TimeSignature.ticks, truncate_eq_floor hticks]
  exact Int.floor_nonneg.mpr hticks

lemma playMeasures_keeps (hus : ∀ t ∈ us, t.Plain) {entries : List (Entry P)}
    (hentries : ∀ e ∈ entries, e.From us) (count : Nat) {index : Int} (hindex : 1 ≤ index) :
    Keeps (Context.Sound us l o) (MayFail us l) (playMeasures entries count index)
      fun _ => True := by
  induction count generalizing index with
  | zero => exact Keeps.pure trivial
  | succ count ih =>
    refine Keeps.get_bind fun c _ => ?_
    have hbase : 0 ≤ (index - 1) * c.header.signature.ticks :=
      mul_nonneg (by omega) (signature_ticks_nonneg _)
    refine (Keeps.forM fun e he => playEntry_keeps hus hbase hindex (hentries e he)).bind
      fun _ _ => Keeps.get_bind fun d _ => ?_
    split
    · exact Keeps.pure trivial
    · exact ih (by omega)

lemma rangeOf_cases (b : MeasureBlock P) :
    rangeOf b = .ok none ∨ (∃ first last, rangeOf b = .ok (some (first, last)) ∧ 1 ≤ first ∧
      first ≤ last) ∨ ∃ f, rangeOf b = .error f ∧ f.IsTooLong := by
  unfold rangeOf
  split
  · exact readRange_cases _
  · exact .inl rfl

lemma playMeasure_keeps (hus : ∀ t ∈ us, t.Plain) {b : MeasureBlock P}
    (hb : ∀ body, b.body = some body → body ⊆ us) :
    Keeps (Context.Sound us l o) (MayFail us l) (playMeasure b) fun _ => True := by
  have hrange : Keeps (Context.Sound us l o) (MayFail us l)
      (placed (.reached 2) (lift (rangeOf b))) fun r => ∀ p, r = some p → 1 ≤ p.1 := by
    rcases rangeOf_cases b with h | ⟨first, last, h, hfirst, -⟩ | ⟨f, h, hlong⟩
    · rw [h]
      exact (Keeps.pure (by simp)).placed
    · rw [h]
      exact (Keeps.pure (by simpa using hfirst)).placed
    · rw [h]
      exact (Keeps.throw (.inl (.of_isTooLong hlong))).placed
  refine hrange.bind fun range hfirst => ?_
  split
  · exact report_keeps _ _
  · exact report_keeps _ _
  · rename_i body first last hbody
    refine Keeps.get_bind fun c _ => ?_
    have hplay : Keeps (Context.Sound us l o) (MayFail us l) (do
        let entries := readEntries (← get).defines body
        placed .behind (playMeasures entries (min (span first last) c.options.maxMeasureSpan)
          first)) fun _ => True :=
      Keeps.get_bind fun d _ => (playMeasures_keeps hus (readEntries_from _ (hb body hbody)) _
        (hfirst (first, last) rfl)).placed
    dsimp only
    split
    · exact (report_keeps _ _).bind fun _ _ => hplay
    · exact hplay

/-! ### Tunings and maps -/

lemma eval_search_kit {α : Type} (name : String) (g : Kit → α) (c : Context P) :
    eval (search (.kit name g)) c = (fun kits => ((get? name kits).map g,
      { c with library := { c.library with kits := some kits } })) <$> c.library.kitList := by
  simp only [search, consult, eval_bind, eval_get, ok_bind, eval_lift, Library.kit?_eq]
  cases c.library.kitList <;> rfl

lemma eval_search_tuning {α : Type} (name : String) (g : Tuning → α) (c : Context P) :
    eval (search (.tuning name g)) c = (fun tunings => ((get? name tunings.list).map g,
      { c with library := { c.library with tunings := some tunings } })) <$>
        c.library.tuningList := by
  simp only [search, consult, eval_bind, eval_get, ok_bind, eval_lift, Library.tuning?_eq]
  cases c.library.tuningList <;> rfl

lemma allPitches_true {ss : List String} (h : allPitches ss = .ok true) :
    ∀ s ∈ ss, ∀ f, Pitch.read s Pitch.defaultOctave ≠ .error f := by
  fun_induction allPitches ss with
  | case1 => simp
  | case2 s ss ih =>
    rcases hs : Pitch.read s Pitch.defaultOctave with f | _ | p
    · simp [hs] at h
    · simp [hs, pure, Except.pure] at h
    · simp only [List.forall_mem_cons]
      exact ⟨by simp [hs], ih (by simpa [hs] using h)⟩

lemma allPitches_error {ss : List String} {f : Fault} (h : allPitches ss = .error f) :
    ∃ s ∈ ss, Pitch.read s Pitch.defaultOctave = .error f := by
  fun_induction allPitches ss with
  | case1 => simp at h
  | case2 s ss ih =>
    rcases hs : Pitch.read s Pitch.defaultOctave with g | _ | p
    · obtain rfl : g = f := by simpa [hs] using h
      exact ⟨s, by simp, hs⟩
    · simp [hs, pure, Except.pure] at h
    · obtain ⟨s', hs', hf⟩ := ih (by simpa [hs] using h)
      exact ⟨s', by simp [hs'], hf⟩

lemma mem_of_trim {c : Char} {s : String} (h : c ∈ (trim s).toList) : c ∈ s.toList := by
  simp only [trim, trimBy, String.toList_ofList, List.mem_reverse] at h
  have h₁ := (List.dropWhile_suffix isBlank).subset h
  exact (List.dropWhile_suffix isBlank).subset (List.mem_reverse.mp h₁)

/-- Neither a blank nor a comma stands in a symbol, so a row of strings is quoted. -/
lemma quoted_of_isPitchRow (hus : ∀ t ∈ us, t.Plain) {a : Attribute P} (ha : a.From us)
    (hrow : isPitchRow a.value = true) : ∃ t ∈ us, t.lexeme = .quoted a.value := by
  rcases ha with hempty | ⟨t, ht, hquoted | hsymbol⟩
  · rw [hempty] at hrow
    exact absurd hrow (by decide)
  · exact ⟨t, ht, hquoted⟩
  · have hplain := hus t ht _ hsymbol
    simp only [isPitchRow, Bool.or_eq_true, List.contains_iff_mem] at hrow
    rcases hrow with hblank | hcomma
    · exact absurd (hplain _ (mem_of_trim hblank)) (by decide)
    · exact absurd (hplain _ hcomma) (by decide)

/-- A row of strings that cannot be read is quoted, and one of its pitches has too long a number or
is spelled in another script. -/
lemma mayFail_of_readRow (hus : ∀ t ∈ us, t.Plain) {a : Attribute P} (ha : a.From us)
    (hrow : isPitchRow a.value = true) {f : Fault} (h : readRow a.value = .error f) :
    MayFail us l f := by
  obtain ⟨note, hnote, hread⟩ := allPitches_error (allPitches_of_readRow_error h)
  rcases Pitch.read_cases note Pitch.defaultOctave with h | ⟨p, oct, h, -⟩ | ⟨g, h, hg⟩
  · simp [hread] at h
  · simp [hread] at h
  · obtain rfl : f = g := by simpa [hread] using h
    rcases hg with hlong | hspelled
    · exact .inl (.of_isTooLong hlong)
    · obtain ⟨t, ht, hquoted⟩ := quoted_of_isPitchRow hus ha hrow
      exact .inl (.tuning ht hquoted hrow hnote hspelled)

/-! ### Declarations -/

/-- The strings of an instrument fail only as the library does. -/
def InTune (l : Library) (i : Instrument) : Prop := ∀ f, i.Mistuned f → l.Raises f

lemma search_keeps (hus : ∀ t ∈ us, t.Plain) {i : Instrument} (hi : InTune l i)
    {a : Attribute P} (ha : a.From us) {s : Search Instrument} (hs : Sought i a.value s) :
    Keeps (Context.Sound us l o) (MayFail us l) (search (P := P) s)
      fun found => ∀ j, found = some j → InTune l j := by
  cases hs with
  | plain h =>
    refine Keeps.pure fun j hj f hf => hi f ?_
    unfold Instrument.Mistuned at hf ⊢
    rwa [← (h j hj).2]
  | map =>
    intro c hc
    rw [eval_search_kit, hc.library.1]
    rcases hk : l.kitList with f | kits
    · exact .error (.inr (.kits hk))
    · refine .ok { hc with library := ⟨hk.symm, hc.library.2⟩ } fun j hj => ?_
      obtain ⟨kit, -, rfl⟩ := Option.map_eq_some_iff.mp hj
      exact hi
  | row hrow =>
    rw [search]
    refine Keeps.lift ?_ fun f hf => mayFail_of_readRow hus ha hrow ((map_eq_error _).mp hf)
    rintro _ hfound j rfl f ⟨_, htuning, note, hnote, hf⟩
    obtain ⟨strings, hread, rfl⟩ := map_map_eq_some.mp hfound
    cases htuning
    exact absurd hf (allPitches_true (allPitches_of_readRow hread).2 note hnote f)
  | tuning hrow =>
    intro c hc
    rw [eval_search_tuning, hc.library.2]
    rcases ht : l.tuningList with f | tunings
    · exact .error (.inr (.tunings ht))
    · refine .ok { hc with library := ⟨hc.library.1, ht.symm⟩ } fun j hj => ?_
      obtain ⟨t, hget, rfl⟩ := Option.map_eq_some_iff.mp hj
      rintro f ⟨_, ⟨⟩, s, hs, hf⟩
      exact .strings ht hget hs hf

lemma setAttribute_keeps (hus : ∀ t ∈ us, t.Plain) {i : Instrument} (hi : InTune l i)
    {a : Attribute P} (ha : a.From us) :
    Keeps (Context.Sound us l o) (MayFail us l) (setAttribute i a) (InTune l) :=
  setAttribute_keeps_of hi (fun _ _ => report_keeps _ _) fun _ hs => search_keeps hus hi ha hs

lemma defineInstrument_keeps (hus : ∀ t ∈ us, t.Plain) (group : Option String)
    {b : InstrumentBlock P} (hb : b.From us) :
    Keeps (Context.Sound us l o) (MayFail us l) (defineInstrument group b) fun _ => True := by
  unfold defineInstrument
  split
  · exact (report_keeps _ _).bind fun _ _ => Keeps.pure trivial
  · rename_i d hd
    have fresh : InTune l { id := d.id.value, label := d.label, group } := by
      rintro f ⟨strings, ⟨⟩, -⟩
    refine (Keeps.foldlM fresh fun i hi a ha => setAttribute_keeps hus hi (hb d hd a ha)).bind
      fun i hi => Keeps.get_bind fun c _ => ?_
    split
    · exact (report_keeps _ _).bind fun _ _ => Keeps.pure trivial
    · refine (Keeps.modify fun c hc => ?_).bind fun _ _ =>
        (Keeps.modify fun c hc => ?_).bind fun _ _ => Keeps.pure trivial
      · refine { hc with
          tunings := ?_
          events := fun e he => (hc.events e he).mono (List.subset_append_left _ _) }
        simp only [List.forall_mem_append, List.forall_mem_singleton]
        exact ⟨hc.tunings, hi⟩
      · exact { hc with cursors := fun p hp => hc.cursors p (List.mem_filter.mp hp).1 }

lemma defineGroup_keeps (hus : ∀ t ∈ us, t.Plain) {b : GroupBlock P}
    (hb : ∀ blocks, b.members = some blocks → ∀ p ∈ blocks, p.1.From us) :
    Keeps (Context.Sound us l o) (MayFail us l) (defineGroup b) fun _ => True := by
  unfold defineGroup
  split
  · exact report_keeps _ _
  · rename_i blocks hblocks
    refine (Keeps.foldlM (R := fun _ => True) trivial fun members _ p hp => ?_).bind fun _ _ =>
      Keeps.modify fun c hc => { hc with }
    refine (defineInstrument_keeps hus _ (hb blocks hblocks p hp)).placed.bind fun i _ => ?_
    cases i <;> exact Keeps.pure trivial

lemma declareParams_keeps (name : String) (params : List (Token P)) :
    Keeps (Context.Sound us l o) (MayFail us l) (declareParams name params) fun _ => True := by
  refine Keeps.foldlM trivial fun names _ t _ => ?_
  dsimp only
  split
  · exact (report_keeps _ _).bind fun _ _ => Keeps.pure trivial
  · exact Keeps.pure trivial

lemma defineMacro_keeps {b : MacroBlock P} (hb : ∀ body, b.body = some body → body ⊆ us) :
    Keeps (Context.Sound us l o) (MayFail us l) (defineMacro b) fun _ => True := by
  refine (declareParams_keeps _ _).bind fun params _ => ?_
  split
  · exact (report_keeps _ _).bind fun _ _ => Keeps.pure trivial
  · rename_i body hbody
    refine (Keeps.modify fun c hc => { hc with macros := fun p hp => ?_ }).bind fun _ _ =>
      Keeps.pure trivial
    rcases mem_put hp with hp | hp
    · rw [hp]; exact hb body hbody
    · exact hc.macros p hp

lemma declare_keeps (hus : ∀ t ∈ us, t.Plain) {d : Declaration P} (hd : d.From us) :
    Keeps (Context.Sound us l o) (MayFail us l) (declare d) fun _ => True := by
  cases d with
  | header b => exact applyHeader_keeps b
  | group b => exact defineGroup_keeps hus hd
  | instrument b => exact (defineInstrument_keeps hus none hd).discard
  | template b => exact (defineMacro_keeps hd).discard
  | measure b => exact playMeasure_keeps hus hd

end Run

lemma writeInt_keeps {I : Context P → Prop} {F : Fault → Prop} (h : F .numberTooLong) (n : Int) :
    Keeps I F (lift (discard (writeInt n))) fun _ => True := by
  unfold writeInt
  split
  · exact Keeps.pure trivial
  · exact Keeps.throw h

/-- **A compilation ends in a sound state or with a fault of a limit or of the library.** -/
theorem compileTokens_sound {us : List (Token P)} (hus : ∀ t ∈ us, t.Plain) (o : Options)
    (l : Library) :
    (∃ c, compileTokens o l us = .ok () c ∧ c.Sound us l o) ∨
      ∃ s c, compileTokens o l us = .error s c ∧ MayFail us l s.fault := by
  have hall : Keeps (Context.Sound us l o) (MayFail us l) (do
      declareAll (readDocument us)
      lift (discard (writeInt (← get).timeline.ticks)) : Run P Unit) fun _ => True := by
    have hdeclare : Keeps (Context.Sound us l o) (MayFail us l) (declareAll (readDocument us))
        fun _ => True :=
      Keeps.forM fun d hd => declare_keeps hus (readDocument_from us d hd)
    exact hdeclare.bind fun _ _ => Keeps.get_bind fun c _ => writeInt_keeps (.inl .number) _
  have hends := hall (.start o l) .start
  unfold Run.eval at hends
  unfold compileTokens
  cases hrun : EStateM.run _ (Context.start o l) with
  | ok _ c =>
    rw [hrun] at hends
    cases hends with
    | ok hc _ => exact .inl ⟨c, rfl, hc⟩
  | error s c =>
    rw [hrun] at hends
    cases hends with
    | error hf => exact .inr ⟨s, c, rfl, hf⟩

/-- What a compilation gives is the score of the state it ends in, and what was found wrong. -/
lemma compile_eq_ok {o : Options} {l l' : Library} {source : String} {compiled : Compiled}
    (h : compile o l source = (.ok compiled, l')) :
    ∃ c, compileTokens o l (tokenize source) = .ok () c ∧ c.Sound (tokenize source) l o ∧
      compiled = ⟨c.score, locateAll (.ofSource source) c.found⟩ := by
  unfold compile at h
  rcases compileTokens_sound (tokenize_plain source) o l with ⟨c, hrun, hc⟩ | ⟨s, c, hrun, -⟩
  · rw [hrun] at h
    dsimp only at h
    split at h
    · cases h
    · cases h
      exact ⟨c, hrun, hc, rfl⟩
  · rw [hrun] at h
    cases h

end Partitura
