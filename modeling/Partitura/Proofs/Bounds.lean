import Partitura.Proofs.Walkthrough

/-!
What a walk keeps within bounds.

A step is one of a few moves (`Moves`): a handler takes at least one token of its stream and never
one that is not there, a macro or a measure block is opened, a block is rewound, or a stream that
is over is closed. The limits on calls, on open macros and on the measures of a block are kept by
every move (`Within`), hence at every point of a walk.
-/

namespace Partitura

open Number Run

variable {P : Type}

def Loop.block? : Loop P → Option (Playback P)
  | .entries b | .voices b _ | .voice b _ _ _ => some b
  | .document _ | .body _ _ => none

/-- What a loop counts for: whether it is a macro, and the block it belongs to. -/
def Loop.role (loop : Loop P) : Bool × Option (Playback P) := (loop.isBody, loop.block?)

/-- The measures of a block are begun one after the other, from its first one on, and no more
than the limit allows. -/
structure Playback.Within (o : Options) (b : Playback P) : Prop where
  count : b.begun.length + b.left ≤ o.maxMeasureSpan
  newest : b.begun.head? = some b.index
  oldest : b.begun.getLast? = some b.first
  increasing : b.begun.Pairwise (· > ·)

/-- The next measure of a block is a later one. -/
lemma Playback.Within.rewind {o : Options} {b b' : Playback P} (h : b.Within o)
    (hfirst : b'.first = b.first) (hindex : b'.index = b.index + 1)
    (hbegun : b'.begun = b'.index :: b.begun) (hleft : b.left = b'.left + 1) : b'.Within o := by
  obtain ⟨hcount, hnewest, holdest, hincreasing⟩ := h
  obtain ⟨earlier, hearlier⟩ := List.head?_eq_some_iff.mp hnewest
  rw [hearlier] at hbegun hcount holdest hincreasing
  have hlater : ∀ index ∈ b.index :: earlier, b'.index > index := by
    rw [List.pairwise_cons] at hincreasing
    intro index hmem
    rcases List.mem_cons.mp hmem with rfl | hmem
    · omega
    · have := hincreasing.1 index hmem
      omega
  refine ⟨?_, ?_, ?_, ?_⟩
  · simp only [hbegun, List.length_cons] at hcount ⊢
    omega
  · simp [hbegun]
  · rw [hbegun, hfirst, List.getLast?_cons_cons, holdest]
  · rw [hbegun]
    exact List.pairwise_cons.mpr ⟨hlater, hincreasing⟩

namespace Walk

/-- The limits on calls, on open macros and on the measures of the blocks are kept. -/
structure Within (o : Options) (rs : List (Reader P)) (c : Context P) : Prop where
  options : c.options = o
  expansions : c.expansions ≤ o.maxMacroExpansions
  depth : openMacros rs ≤ o.maxMacroDepth
  blocks : ∀ r ∈ rs, ∀ b ∈ r.loop.block?, b.Within o

/-- What a step in the state `c` does to the open streams, and how many calls it expands. -/
inductive Move (c : Context P) : Nat → List (Reader P) → List (Reader P) → Prop
  /-- A handler takes tokens; the stream goes on behind them. -/
  | read {loop loop' : Loop P} {t : Token P} {ts rest : List (Token P)} {below : List (Reader P)}
      (hrest : rest <:+ ts) (hrole : loop'.role = loop.role) :
      Move c 0 (⟨loop, t :: ts⟩ :: below) (⟨loop', rest⟩ :: below)
  /-- A handler takes a call, and the macro is opened. -/
  | call {loop loop' : Loop P} {t : Token P} {ts rest : List (Token P)} {below : List (Reader P)}
      {s : Stage} {tick : Int} {m : Macro P} {args : List (List (Token P))}
      (hrest : rest <:+ ts) (hrole : loop'.role = loop.role)
      (hdepth : openMacros (⟨loop, t :: ts⟩ :: below) < c.options.maxMacroDepth)
      (hcount : c.expansions < c.options.maxMacroExpansions) :
      Move c 1 (⟨loop, t :: ts⟩ :: below)
        (⟨.body s tick, m.expand args⟩ :: ⟨loop', rest⟩ :: below)
  /-- A handler takes a measure block, and its first measure begins. -/
  | block {wrapped : Bool} {t : Token P} {ts rest : List (Token P)} {below : List (Reader P)}
      {m : MeasureBlock P} {b : Playback P} {last : Int}
      (hrest : rest <:+ ts) (hread : readDeclaration? t ts = some (.measure m, rest))
      (hbody : m.body = some b.body) (hrange : rangeOf m = .ok (some (b.first, last)))
      (hindex : b.index = b.first) (hbegun : b.begun = [b.first])
      (hleft : b.left < c.options.maxMeasureSpan) :
      Move c 0 (⟨.document wrapped, t :: ts⟩ :: below)
        (⟨.entries b, b.body⟩ :: ⟨.document wrapped, rest⟩ :: below)
  /-- A measure is over and the next one of its block begins. -/
  | rewind {b b' : Playback P} {below : List (Reader P)} (hbody : b'.body = b.body)
      (hfirst : b'.first = b.first) (hindex : b'.index = b.index + 1)
      (hbegun : b'.begun = b'.index :: b.begun) (hleft : b.left = b'.left + 1) :
      Move c 0 (⟨.entries b, []⟩ :: below) (⟨.entries b', b'.body⟩ :: below)
  | endBlock {b : Playback P} {below : List (Reader P)} : Move c 0 (⟨.entries b, []⟩ :: below) below
  | endVoices {b : Playback P} {i : Instrument} {below : List (Reader P)} :
      Move c 0 (⟨.voices b i, []⟩ :: below) (⟨.entries b, []⟩ :: below)
  | endVoice {b : Playback P} {named : Bool} {s : Stage} {tick : Int} {ts : List (Token P)}
      {below : List (Reader P)} (hover : ts = [] ∨ c.endsAt (openMacros below) ts = true) :
      Move c 0 (⟨.voice b named s tick, ts⟩ :: below) (closeVoice b named s below ts)
  | endBody {s : Stage} {tick : Int} {below : List (Reader P)} :
      Move c 0 (⟨.body s tick, []⟩ :: below) (closeBody tick below)
  /-- A closing brace ends a document that is wrapped. -/
  | endDocument {wrapped : Bool} {ts : List (Token P)} {below : List (Reader P)}
      (hover : ts = [] ∨ wrapped = true ∧ ∃ t us, ts = t :: us ∧ t.isPunct .closeBrace = true) :
      Move c 0 (⟨.document wrapped, ts⟩ :: below) below
  | done : Move c 0 [] []

def Moves (rs rs' : List (Reader P)) (c d : Context P) : Prop :=
  ∃ calls, Move c calls rs rs' ∧ d.options = c.options ∧ d.expansions = c.expansions + calls

/-! ### Steps are moves -/

section Moves

variable {rs rs' below : List (Reader P)} {c d : Context P}

lemma Move.moves (h : Move c 0 rs rs') : Moves rs rs' c c := ⟨0, h, rfl, rfl⟩

lemma Move.moves_of_record (h : Move c 0 rs rs') (hd : d.record = c.record) : Moves rs rs' c d := by
  simp only [Context.record, Prod.mk.injEq] at hd
  exact ⟨0, h, hd.1, hd.2.2.2.2⟩

/-- Steps in a row of events: an event, a call, or the end of the row. -/
lemma ReadsEvents.moves {s : Stage} {depth : Nat} {tick : Int} {loop : Int → Loop P}
    {close : Int → List (Token P) → List (Reader P)} {ts : List (Token P)}
    (hreads : ReadsEvents s depth loop close below)
    (hrole : ∀ tick', (loop tick').role = (loop tick).role)
    (hclose : ts = [] ∨ c.endsAt depth ts = true →
      Move c 0 (⟨loop tick, ts⟩ :: below) (close tick ts))
    (h : eval (walkStep (⟨loop tick, ts⟩ :: below)) c = .ok (rs', d)) :
    Moves (⟨loop tick, ts⟩ :: below) rs' c d := by
  rw [hreads.step] at h
  cases rowStep_of_stepEvents h with
  | closes hover => exact (hclose hover).moves
  | refused hlook => exact ⟨0, .read (readCallArgs_suffix _) rfl, rfl, rfl⟩
  | @call name p ts m hlook =>
    obtain ⟨-, hroom, hcount⟩ := lookUp_eq_ok.mp hlook
    have hdepth := hreads.depth tick (⟨.call name, p⟩ :: ts)
    exact ⟨1, .call (readCallArgs_suffix ts) rfl (by omega) hcount, rfl, rfl⟩
  | event hends ht he hr =>
    exact ⟨0, .read (readEvent_suffix _ _) (hrole _), c.enter_options _ _ _,
      c.enter_expansions _ _ _⟩
  | skip hends hcall ht => exact (Move.read (List.suffix_refl _) rfl).moves

lemma move_of_stepVoices (b : Playback P) (i : Instrument) (below : List (Reader P))
    (ts : List (Token P)) : Move c 0 (⟨.voices b i, ts⟩ :: below) (stepVoices b i below ts) := by
  cases ts with
  | nil => exact .endVoices
  | cons t ts =>
    simp only [stepVoices]
    split
    · exact .read (List.suffix_refl ts) rfl
    · exact .read (List.suffix_refl ts) rfl
    · exact .read (skipPunct_suffix .colon ts) rfl

lemma openPart_read (b : Playback P) (i : Instrument) (ts : List (Token P)) :
    ∃ loop rest, openPart b i ts = ⟨loop, rest⟩ ∧ loop.role = (false, some b) ∧ rest <:+ ts := by
  have hcolon := skipPunct_suffix .colon ts
  rcases openPart_cases b i ts with ⟨p, rest, hskip, hopen, -⟩ | ⟨hopen, -⟩
  · rw [hskip] at hcolon
    exact ⟨_, rest, hopen, rfl, (List.suffix_cons _ rest).trans hcolon⟩
  · exact ⟨_, _, hopen, rfl, hcolon⟩

lemma moves_of_stepEntries {b : Playback P} {ts : List (Token P)}
    (h : eval (stepEntries b below ts) c = .ok (rs', d)) :
    Moves (⟨.entries b, ts⟩ :: below) rs' c d := by
  cases ts with
  | nil =>
    simp only [stepEntries, eval_bind, eval_get, ok_bind] at h
    split at h
    · cases h; exact Move.endBlock.moves
    split at h
    · cases h; exact Move.endBlock.moves
    · rename_i left hleft
      cases h
      have hmove : Move c 0 (⟨.entries b, []⟩ :: below)
          (begin c { b with index := b.index + 1, left } :: below) := .rewind rfl rfl rfl rfl hleft
      exact hmove.moves
  | cons t ts =>
    simp only [stepEntries] at h
    split at h
    · split at h
      · rw [eval_bind] at h
        obtain ⟨⟨_, e⟩, hheader, h⟩ := bind_eq_ok.mp h
        cases h
        exact (Move.read (readHeader_suffix t ts) rfl).moves_of_record
          ((applyHeader_frames _).record_eq hheader)
      · simp only [eval_bind, eval_get, ok_bind] at h
        split at h
        · rename_i i _
          cases h
          obtain ⟨loop, rest, hopen, hrole, hrest⟩ := openPart_read b i ts
          rw [hopen]
          exact (Move.read hrest hrole).moves
        · cases h; exact (Move.read (List.suffix_refl ts) rfl).moves
    · cases h; exact (Move.read (List.suffix_refl ts) rfl).moves

lemma mem_playbackOf {body : List (Token P)} {first : Int} {count : Nat} {b : Playback P}
    (h : b ∈ playbackOf body first count) :
    b.body = body ∧ b.first = first ∧ b.index = first ∧ b.begun = [] ∧ b.left < count := by
  cases count with
  | zero => cases h
  | succ left => cases h; exact ⟨rfl, rfl, rfl, rfl, Nat.lt_succ_self left⟩

/-- A playback starts with the first measure of the range that was read. -/
lemma playback?_eq_ok {m : MeasureBlock P} {p : Option (Playback P)}
    (h : eval (playback? m) c = .ok (p, d)) :
    d.record = c.record ∧ ∀ b ∈ p, m.body = some b.body ∧ b.index = b.first ∧ b.begun = [] ∧
      (∃ last, rangeOf m = .ok (some (b.first, last))) ∧ b.left < c.options.maxMeasureSpan := by
  rw [playback?, eval_bind] at h
  obtain ⟨⟨range, e⟩, hlift, h⟩ := bind_eq_ok.mp h
  obtain ⟨hrange, rfl⟩ := eval_lift_eq_ok.mp hlift
  split at h
  · simp only [eval_bind, eval_report, ok_bind, eval_pure] at h
    cases h
    exact ⟨rfl, by simp⟩
  · simp only [eval_bind, eval_report, ok_bind, eval_pure] at h
    cases h
    exact ⟨rfl, by simp⟩
  · rename_i body first last hbody hread
    have hplayed : p = playbackOf body first (min (span first last) c.options.maxMeasureSpan) ∧
        d.record = c.record := by
      simp only [eval_bind, eval_get, ok_bind] at h
      split at h
      · simp only [eval_bind, eval_report, ok_bind, eval_pure] at h
        cases h
        exact ⟨rfl, rfl⟩
      · cases h
        exact ⟨rfl, rfl⟩
    refine ⟨hplayed.2, fun b hb => ?_⟩
    rw [hplayed.1] at hb
    obtain ⟨rfl, rfl, hindex, hbegun, hleft⟩ := mem_playbackOf hb
    exact ⟨hbody, hindex, hbegun, ⟨last, hread ▸ hrange⟩, hleft.trans_le (min_le_right _ _)⟩

/-- A measure block is read, and opened if there is something to be played. -/
lemma moves_of_openMeasure {m : MeasureBlock P} {wrapped : Bool} {t : Token P}
    {ts rest : List (Token P)} (hrest : rest <:+ ts)
    (hread : readDeclaration? t ts = some (.measure m, rest))
    (h : eval (openMeasure m (⟨.document wrapped, rest⟩ :: below)) c = .ok (rs', d)) :
    Moves (⟨.document wrapped, t :: ts⟩ :: below) rs' c d := by
  rw [openMeasure, eval_bind] at h
  obtain ⟨⟨p, e⟩, hp, h⟩ := bind_eq_ok.mp h
  obtain ⟨hrecord, hfresh⟩ := playback?_eq_ok hp
  cases p with
  | none =>
    cases h
    exact (Move.read hrest rfl).moves_of_record hrecord
  | some b =>
    cases h
    obtain ⟨hbody, hindex, hbegun, ⟨last, hrange⟩, hleft⟩ := hfresh b rfl
    have hmove : Move c 0 (⟨.document wrapped, t :: ts⟩ :: below)
        (begin e b :: ⟨.document wrapped, rest⟩ :: below) :=
      .block hrest hread hbody hrange hindex (by simp [begun, hindex, hbegun]) hleft
    exact hmove.moves_of_record hrecord

lemma eval_finish_eq_ok (h : eval (finish below) c = .ok (rs', d)) : rs' = below ∧ d = c := by
  rw [finish, eval_bind, eval_get, ok_bind, eval_bind] at h
  obtain ⟨⟨_, e⟩, hwrite, h⟩ := bind_eq_ok.mp h
  obtain ⟨-, rfl⟩ := eval_lift_eq_ok.mp hwrite
  cases h
  exact ⟨rfl, rfl⟩

lemma moves_of_stepDocument {wrapped : Bool} {ts : List (Token P)}
    (h : eval (stepDocument wrapped below ts) c = .ok (rs', d)) :
    Moves (⟨.document wrapped, ts⟩ :: below) rs' c d := by
  cases ts with
  | nil =>
    rw [stepDocument] at h
    obtain ⟨rfl, rfl⟩ := eval_finish_eq_ok h
    exact (Move.endDocument (.inl rfl)).moves
  | cons t ts =>
    rw [stepDocument] at h
    split at h
    · rename_i hbrace
      split at h
      · rename_i hwrapped
        obtain ⟨rfl, rfl⟩ := eval_finish_eq_ok h
        exact (Move.endDocument (.inr ⟨hwrapped, t, ts, rfl, hbrace⟩)).moves
      · cases h
        exact (Move.read (List.suffix_refl ts) rfl).moves
    · split at h
      · rename_i hread
        exact moves_of_openMeasure (readDeclaration?_suffix hread) hread h
      · rename_i decl rest hne hread
        rw [eval_bind] at h
        obtain ⟨⟨_, e⟩, hdeclare, h⟩ := bind_eq_ok.mp h
        cases h
        exact (Move.read (readDeclaration?_suffix hread) rfl).moves_of_record
          ((declare_frames hne).record_eq hdeclare)
      · cases h
        exact (Move.read (List.suffix_refl ts) rfl).moves

/-- **Every step of the walk is a move.** -/
lemma moves_of_walkStep (h : eval (walkStep rs) c = .ok (rs', d)) : Moves rs rs' c d := by
  rcases rs with _ | ⟨⟨loop, ts⟩, below⟩
  · cases h
    exact Move.done.moves
  cases loop with
  | document wrapped => exact moves_of_stepDocument h
  | entries b => exact moves_of_stepEntries h
  | voices b i =>
    cases h
    exact (move_of_stepVoices b i below ts).moves
  | voice b named s tick =>
    exact (readsEvents_voice b named s below).moves (fun _ => rfl) (fun hover => .endVoice hover) h
  | body s tick =>
    refine (readsEvents_body s below).moves (fun _ => rfl) ?_ h
    -- inside a macro nothing ends the stream but its last token
    rintro (rfl | hends)
    · exact .endBody
    · cases hends

end Moves

/-! ### Moves keep the limits -/

section Within

variable {o : Options} {rs rs' below : List (Reader P)} {c d : Context P}

lemma role_body (s : Stage) (tick : Int) : (Loop.body s tick : Loop P).role = (true, none) := rfl

lemma role_moveTo (tick : Int) (loop : Loop P) : (moveTo tick loop).role = loop.role := by
  cases loop <;> rfl

lemma openMacros_eq (rs : List (Reader P)) :
    openMacros rs = (rs.map (·.loop.role)).countP (·.1) := by
  rw [openMacros, List.countP_map]
  rfl

/-- Closing streams, and going on in one, breaks no limit. -/
lemma Within.of_sublist (h : Within o rs c)
    (hrs : (rs'.map (·.loop.role)).Sublist (rs.map (·.loop.role))) : Within o rs' c where
  options := h.options
  expansions := h.expansions
  depth := by
    rw [openMacros_eq]
    refine (hrs.countP_le).trans ?_
    rw [← openMacros_eq]
    exact h.depth
  blocks := by
    intro r hr b hb
    obtain ⟨r', hr', hrole⟩ := List.mem_map.mp (hrs.mem (List.mem_map_of_mem hr))
    refine h.blocks r' hr' b ?_
    rw [show r'.loop.block? = r.loop.block? from congrArg (·.2) hrole]
    exact hb

/-- A stream is opened above the others. -/
lemma Within.push (h : Within o rs c) {r : Reader P}
    (hdepth : openMacros (r :: rs) ≤ o.maxMacroDepth) (hblock : ∀ b ∈ r.loop.block?, b.Within o) :
    Within o (r :: rs) c where
  options := h.options
  expansions := h.expansions
  depth := hdepth
  blocks := List.forall_mem_cons.mpr ⟨hblock, h.blocks⟩

/-- A move breaks no limit, nor does counting its calls. -/
lemma Within.move (h : Within o rs c) {calls : Nat} (hmove : Move c calls rs rs') :
    Within o rs' c ∧ c.expansions + calls ≤ o.maxMacroExpansions := by
  cases hmove with
  | @read loop loop' t ts rest below _ hrole =>
    exact ⟨h.of_sublist (by simp [hrole]), h.expansions⟩
  | @call loop loop' t ts rest below s tick m args _ hrole hdepth hcount =>
    rw [h.options] at hdepth hcount
    have hbehind : Within o (⟨loop', rest⟩ :: below) c := h.of_sublist (by simp [hrole])
    have hopen : openMacros (⟨.body s tick, m.expand args⟩ :: ⟨loop', rest⟩ :: below) =
        openMacros (⟨loop, t :: ts⟩ :: below) + 1 := by
      simp [openMacros_eq, hrole, role_body]
    exact ⟨hbehind.push (by omega) (by simp [Loop.block?]), hcount⟩
  | @block wrapped t ts rest below m b last _ _ _ _ hindex hbegun hleft =>
    rw [h.options] at hleft
    have hbehind : Within o (⟨.document wrapped, rest⟩ :: below) c := h.of_sublist (by simp)
    have hblock : b.Within o := by
      refine ⟨?_, ?_, ?_, ?_⟩
      · simp only [hbegun, List.length_singleton]
        omega
      · simp [hbegun, hindex]
      · simp [hbegun]
      · simp [hbegun]
    exact ⟨hbehind.push hbehind.depth (by simpa [Loop.block?] using hblock), h.expansions⟩
  | @rewind b b' below _ hfirst hindex hbegun hleft =>
    have hbelow : Within o below c := h.of_sublist (by simp)
    have hblock : b'.Within o :=
      (h.blocks _ List.mem_cons_self b rfl).rewind hfirst hindex hbegun hleft
    exact ⟨hbelow.push hbelow.depth (by simpa [Loop.block?] using hblock), h.expansions⟩
  | endBlock => exact ⟨h.of_sublist (by simp), h.expansions⟩
  | @endVoices b i below =>
    have hrole : (Loop.entries b).role = (Loop.voices b i).role := rfl
    exact ⟨h.of_sublist (by simp [hrole]), h.expansions⟩
  | @endVoice b named s tick ts below =>
    have hrole : (if named then Loop.voices b s.instrument else .entries b).role =
        (Loop.voice b named s tick).role := by cases named <;> rfl
    exact ⟨h.of_sublist (by simp [closeVoice, hrole]), h.expansions⟩
  | @endBody s tick below =>
    refine ⟨h.of_sublist ?_, h.expansions⟩
    cases below <;> simp [closeBody, role_moveTo]
  | endDocument => exact ⟨h.of_sublist (by simp), h.expansions⟩
  | done => exact ⟨h, h.expansions⟩

lemma Within.moves (h : Within o rs c) (hmoves : Moves rs rs' c d) : Within o rs' d := by
  obtain ⟨calls, hmove, hoptions, hexpansions⟩ := hmoves
  obtain ⟨hrs', hcount⟩ := h.move hmove
  exact ⟨hoptions.trans h.options, by omega, hrs'.depth, hrs'.blocks⟩

/-- What is kept within bounds by every step is kept at every point of a walk. -/
lemma Within.walk (h : Within o rs c) {n : Nat} (hwalk : eval (walk n rs) c = .ok (rs', d)) :
    Within o rs' d := by
  induction n generalizing rs c with
  | zero => cases hwalk; exact h
  | succ n ih =>
    rw [Walk.walk, eval_bind] at hwalk
    obtain ⟨⟨rs₁, c₁⟩, hstep, hwalk⟩ := bind_eq_ok.mp hwalk
    exact ih (h.moves (moves_of_walkStep hstep)) hwalk

lemma within_opening (o : Options) (l : Library) (ts : List (Token P)) :
    Within o (opening ts) (.start o l) := by
  obtain ⟨wrapped, us, hopening, -⟩ := opening_eq ts
  rw [hopening]
  exact ⟨rfl, Nat.zero_le _, Nat.zero_le _, by simp [Loop.block?]⟩

end Within

end Walk

open Walk in
/-- **A compilation is a walk that ends**, whatever the source and the options. At every point of
it the limits on calls, on open macros and on the measures of a block are kept, and every step is
a move: no handler of the document, of a measure block or of a voice leaves its stream where it was
or goes past its end. -/
theorem compileTokens_walk (o : Options) (l : Library) (source : String) :
    (∃ n, EndsAs (eval (walk n (opening (tokenize source))) (.start o l))
        (compileTokens o l (tokenize source))) ∧
      ∀ n rs c, eval (walk n (opening (tokenize source))) (.start o l) = .ok (rs, c) →
        Within o rs c ∧
          ∀ rs' d, eval (walkStep rs) c = .ok (rs', d) → Moves rs rs' c d := by
  refine ⟨exists_endsAs o l (tokenize source), fun n rs c hwalk => ⟨?_, fun rs' d hstep => ?_⟩⟩
  · exact (within_opening o l (tokenize source)).walk hwalk
  · exact moves_of_walkStep hstep

end Partitura
