import Mathlib.Data.List.Nodup
import Partitura.Proofs.Ledger
import Partitura.Proofs.WellFormed

/-!
What the limits refuse, and what is reported of it.

A state reports each refusal of its log once. The notices of a compilation are its reports with
their places, and a notice of a refusal can be told by its code, or for macros by its code and its
message; so they can be counted.
-/

namespace Partitura

open Number Run

variable {P : Type}

/-! ### Notices of refusals -/

def OnceIf (count : Nat) (p : Prop) : Prop := (p → count = 1) ∧ (¬ p → count = 0)

def Notice.tells (issue : Issue) (n : Notice) : Bool :=
  n.code == issue.code && n.message == issue.message

lemma notice_eq (i : Issue) (place : Option (Nat × Nat)) :
    (i.notice place).severity = i.severity ∧ (i.notice place).code = i.code ∧
      (i.notice place).message = i.message := by
  cases place <;> exact ⟨rfl, rfl, rfl⟩

namespace Noted

variable {o : Options} {log : List (Encounter P)} {once refusals : List Issue}

/-- A refusal is reported once if it happened. -/
lemma onceIf (h : Noted o log once refusals) {q : Issue → Bool} {issue : Issue}
    (hq : ∀ i ∈ once, q i = true ↔ i = issue) :
    OnceIf (refusals.countP q) (∃ x ∈ log, x.refusal? o = some issue) := by
  have hcount : refusals.countP q = once.count issue := by
    rw [h.reported, List.count_eq_countP]
    refine List.countP_congr fun i hi => ?_
    rw [hq i hi, beq_iff_eq]
  rw [hcount, OnceIf, ← h.mem_iff]
  exact ⟨List.count_eq_one_of_mem h.distinct, List.count_eq_zero.mpr⟩

/-- What is reported once is a refusal by the options. -/
lemma cases (h : Noted o log once refusals) {i : Issue} (hi : i ∈ once) :
    i = .eventLimit o.maxEvents ∨ (∃ name, i = .unknownMacro name) ∨
      (∃ name, i = .macroTooDeep name o.maxMacroDepth) ∨
      i = .macroBudget o.maxMacroExpansions := by
  obtain ⟨x, -, hx⟩ := (h.mem_iff i).mp hi
  rcases Encounter.refusal?_eq_some.mp hx with ⟨-, -, rfl⟩ | ⟨name, -, -, -, rfl⟩ |
    ⟨name, -, -, rfl⟩ | ⟨-, -, rfl⟩
  · exact .inl rfl
  · exact .inr (.inl ⟨name, rfl⟩)
  · exact .inr (.inr (.inl ⟨name, rfl⟩))
  · exact .inr (.inr (.inr rfl))

end Noted

/-- Notices of refusals are counted in what was reported. -/
lemma countP_notices (c : Context Nat) (m : LineMap) {p : Notice → Bool} {q : Issue → Bool}
    (hp : ∀ i place, p (i.notice place) = q i) (hq : ∀ i, q i = true → i.isRefusal = true) :
    (locateAll m c.found).countP p = c.refusals.countP q := by
  rw [locateAll, Context.found, List.countP_map, List.countP_reverse, Context.refusals,
    List.countP_filter, List.countP_map]
  refine List.countP_congr fun r _ => ?_
  simp only [Function.comp_apply, hp, Bool.and_eq_true]
  exact ⟨fun h => ⟨h, hq _ h⟩, fun h => h.1⟩

lemma message_unknownMacro_inj {name name' : String}
    (h : (Issue.unknownMacro name).message = (Issue.unknownMacro name').message) :
    name = name' := by
  have htext : "Unknown macro '$" ++ name ++ "' expands to nothing." =
      "Unknown macro '$" ++ name' ++ "' expands to nothing." := h
  rw [← String.toList_inj] at htext ⊢
  simp only [String.toList_append] at htext
  exact List.append_cancel_left (List.append_cancel_right htext)

lemma message_macroTooDeep_inj {name name' : String} {depth : Nat}
    (h : (Issue.macroTooDeep name depth).message = (Issue.macroTooDeep name' depth).message) :
    name = name' := by
  have htext : "Macro '$" ++ name ++ "' exceeds expansion depth " ++ decimal depth ++
        "; expansion dropped." =
      "Macro '$" ++ name' ++ "' exceeds expansion depth " ++ decimal depth ++
        "; expansion dropped." := h
  rw [← String.toList_inj] at htext ⊢
  simp only [String.toList_append] at htext
  have hname := List.append_cancel_right (List.append_cancel_right htext)
  exact List.append_cancel_left (List.append_cancel_right hname)

lemma isRefusal_of_code {i : Issue}
    (h : i.code ∈ ["UNKNOWN_MACRO", "MACRO_TOO_DEEP", "MACRO_BUDGET", "EVENT_LIMIT"]) :
    i.isRefusal = true := by
  cases i with
  | unknownMacro | macroTooDeep | macroBudget | eventLimit => rfl
  | _ => simp [Issue.code] at h

namespace Logged

variable {o : Options} {log : List (Encounter Nat)} {c : Context Nat}

/-- A refusal that is known by its code is noticed once if it happened. -/
lemma onceIf_code (h : Logged o log c) (m : LineMap) {code : String} {issue : Issue}
    (hcode : code ∈ ["UNKNOWN_MACRO", "MACRO_TOO_DEEP", "MACRO_BUDGET", "EVENT_LIMIT"])
    (hone : ∀ i ∈ c.once, i.code = code ↔ i = issue) :
    OnceIf ((locateAll m c.found).countP (·.code == code))
      (∃ x ∈ log, x.refusal? o = some issue) := by
  have hcount := countP_notices c m (p := (·.code == code)) (q := (·.code == code))
    (fun i place => by rw [(notice_eq i place).2.1])
    fun i hi => isRefusal_of_code (by rwa [beq_iff_eq.mp hi])
  rw [hcount]
  exact h.noted.onceIf fun i hi => by rw [beq_iff_eq, hone i hi]

/-- A refusal that is known by its code and its message is noticed once if it happened. -/
lemma onceIf_tells (h : Logged o log c) (m : LineMap) {issue : Issue}
    (hcode : issue.code ∈ ["UNKNOWN_MACRO", "MACRO_TOO_DEEP", "MACRO_BUDGET", "EVENT_LIMIT"])
    (hone : ∀ i ∈ c.once, i.code = issue.code → i.message = issue.message → i = issue) :
    OnceIf ((locateAll m c.found).countP (·.tells issue))
      (∃ x ∈ log, x.refusal? o = some issue) := by
  have hcount := countP_notices c m (p := (·.tells issue))
    (q := fun i => i.code == issue.code && i.message == issue.message)
    (fun i place => by rw [Notice.tells, (notice_eq i place).2.1, (notice_eq i place).2.2])
    fun i hi => by
      rw [Bool.and_eq_true, beq_iff_eq] at hi
      exact isRefusal_of_code (by rwa [hi.1])
  rw [hcount]
  refine h.noted.onceIf fun i hi => ?_
  rw [Bool.and_eq_true, beq_iff_eq, beq_iff_eq]
  constructor
  · exact fun hsame => hone i hi hsame.1 hsame.2
  · rintro rfl
    exact ⟨rfl, rfl⟩

lemma eventLimit (h : Logged o log c) (m : LineMap) :
    OnceIf ((locateAll m c.found).countP (·.code == "EVENT_LIMIT"))
      (∃ e, .event e false ∈ log) := by
  have hone : ∀ i ∈ c.once, i.code = "EVENT_LIMIT" ↔ i = .eventLimit o.maxEvents := by
    intro i hi
    rcases h.noted.cases hi with rfl | ⟨name, rfl⟩ | ⟨name, rfl⟩ | rfl <;> simp [Issue.code]
  simpa [Encounter.refusal?_eq_some] using h.onceIf_code m (by decide) hone

lemma macroBudget (h : Logged o log c) (m : LineMap) :
    OnceIf ((locateAll m c.found).countP (·.code == "MACRO_BUDGET"))
      (∃ name, .call name true false true ∈ log) := by
  have hone : ∀ i ∈ c.once, i.code = "MACRO_BUDGET" ↔ i = .macroBudget o.maxMacroExpansions := by
    intro i hi
    rcases h.noted.cases hi with rfl | ⟨name, rfl⟩ | ⟨name, rfl⟩ | rfl <;> simp [Issue.code]
  simpa [Encounter.refusal?_eq_some] using h.onceIf_code m (by decide) hone

lemma unknownMacro (h : Logged o log c) (m : LineMap) (name : String) :
    OnceIf ((locateAll m c.found).countP (·.tells (.unknownMacro name)))
      (∃ deep spent, .call name false deep spent ∈ log) := by
  have hone : ∀ i ∈ c.once, i.code = (Issue.unknownMacro name).code →
      i.message = (Issue.unknownMacro name).message → i = .unknownMacro name := by
    intro i hi hcode hmessage
    rcases h.noted.cases hi with rfl | ⟨name', rfl⟩ | ⟨name', rfl⟩ | rfl
    · simp [Issue.code] at hcode
    · rw [message_unknownMacro_inj hmessage]
    · simp [Issue.code] at hcode
    · simp [Issue.code] at hcode
  simpa [Encounter.refusal?_eq_some, and_or_left, exists_or] using
    h.onceIf_tells m (by simp [Issue.code]) hone

lemma macroTooDeep (h : Logged o log c) (m : LineMap) (name : String) :
    OnceIf ((locateAll m c.found).countP (·.tells (.macroTooDeep name o.maxMacroDepth)))
      (∃ spent, .call name true true spent ∈ log) := by
  have hone : ∀ i ∈ c.once, i.code = (Issue.macroTooDeep name o.maxMacroDepth).code →
      i.message = (Issue.macroTooDeep name o.maxMacroDepth).message →
        i = .macroTooDeep name o.maxMacroDepth := by
    intro i hi hcode hmessage
    rcases h.noted.cases hi with rfl | ⟨name', rfl⟩ | ⟨name', rfl⟩ | rfl
    · simp [Issue.code] at hcode
    · simp [Issue.code] at hcode
    · rw [message_macroTooDeep_inj hmessage]
    · simp [Issue.code] at hcode
  simpa [Encounter.refusal?_eq_some, and_or_left, exists_or] using
    h.onceIf_tells m (by simp [Issue.code]) hone

/-- Where nothing is wrong, nothing was refused. -/
lemma clean (h : Logged o log c) (m : LineMap) (hclean : (locateAll m c.found).isClean = true) :
    ∀ x ∈ log, x.refusal? o = none := by
  intro x hx
  cases hissue : x.refusal? o with
  | none => rfl
  | some issue =>
    have honce : issue ∈ c.refusals := by
      rw [h.noted.reported]
      exact (h.noted.mem_iff issue).mpr ⟨x, hx, hissue⟩
    obtain ⟨hreport, hrefusal⟩ := List.mem_filter.mp honce
    obtain ⟨r, hr, rfl⟩ := List.mem_map.mp hreport
    have hnotice : r.issue.notice (r.pos.map m.locate) ∈ locateAll m c.found :=
      List.mem_map_of_mem (f := fun r : Report Nat => r.issue.notice (r.pos.map m.locate))
        (List.mem_reverse.mpr hr)
    have hinfo := List.all_eq_true.mp hclean _ hnotice
    rw [(notice_eq _ _).1, decide_eq_true_eq] at hinfo
    -- every refusal is a warning
    generalize r.issue = i at hrefusal hinfo
    cases i with
    | unknownMacro | macroTooDeep | macroBudget | eventLimit => cases hinfo
    | _ => cases hrefusal

end Logged

lemma Encounter.taken_of_not_refused {o : Options} {x : Encounter P} (h : x.refusal? o = none) :
    x.taken? = x.event? ∧ x.isExpanded = x.isCall := by
  unfold refusal? at h
  split at h
  · exact ⟨rfl, rfl⟩
  · cases h
  · cases h
  · cases h
  · cases h
  · exact ⟨rfl, rfl⟩

open Walk in
/-- **Every refusal is reported, and once.** Events that find no room give one notice, and calls
beyond the budget give one; for every name, calls while it is undefined give one, and calls of the
defined macro where no further one can be opened give one. So if nothing is wrong, the timeline
has all events that the walk through the text came upon, and all its calls were expanded. -/
theorem compile_refusals {o : Options} {l l' : Library} {source : String} {compiled : Compiled}
    (h : compile o l source = (.ok compiled, l')) :
    ∃ n c, eval (walk n (opening (tokenize source))) (.start o l) = .ok ([], c) ∧
      compileTokens o l (tokenize source) = .ok () c ∧
      let log := encounters n (opening (tokenize source)) (.start o l)
      compiled.score.timeline.Perm (log.filterMap Encounter.taken?) ∧
      c.expansions = log.countP Encounter.isExpanded ∧
      OnceIf (compiled.notices.countP (·.code == "EVENT_LIMIT")) (∃ e, .event e false ∈ log) ∧
      OnceIf (compiled.notices.countP (·.code == "MACRO_BUDGET"))
        (∃ name, .call name true false true ∈ log) ∧
      (∀ name, OnceIf (compiled.notices.countP (·.tells (.unknownMacro name)))
        (∃ deep spent, .call name false deep spent ∈ log)) ∧
      (∀ name, OnceIf (compiled.notices.countP (·.tells (.macroTooDeep name o.maxMacroDepth)))
        (∃ spent, .call name true true spent ∈ log)) ∧
      (compiled.notices.isClean = true →
        compiled.score.timeline.Perm (log.filterMap Encounter.event?) ∧
          c.expansions = log.countP Encounter.isCall) := by
  obtain ⟨n, hends⟩ := exists_endsAs o l (tokenize source)
  obtain ⟨c, hc, -, rfl⟩ := compile_eq_ok h
  rw [hc] at hends
  generalize hwalk : eval (walk n (opening (tokenize source))) (.start o l) = r at hends
  cases hends
  have hlogged := Logged.of_walk hwalk
  have hperm := c.timeline.sorted_isStableSort.perm
  rw [hlogged.events, ← hlogged.taken] at hperm
  refine ⟨n, c, hwalk, hc, hperm, hlogged.expansions, hlogged.eventLimit _, hlogged.macroBudget _,
    hlogged.unknownMacro _, hlogged.macroTooDeep _, fun hclean => ?_⟩
  have hall := fun x hx => Encounter.taken_of_not_refused (hlogged.clean _ hclean x hx)
  constructor
  · rw [← List.filterMap_congr fun x hx => (hall x hx).1]
    exact hperm
  · rw [hlogged.expansions]
    exact List.countP_congr fun x hx => by rw [(hall x hx).2]

/-- A source compiles, with notices of these codes. -/
lemma compile_codes {o : Options} (hstrict : o.strict = false) (source : String)
    (codes : List String)
    (hcodes : passes (declareAll (readDocument (tokenize source))) (.start o .shipped)
      (fun _ c => c.found.map (·.issue.code) == codes &&
        c.timeline.newest.all fun e => (writeInt e.stop).isOk) = true) :
    ∃ compiled l, compile o .shipped source = (.ok compiled, l) ∧
      compiled.notices.map (·.code) = codes := by
  obtain ⟨c, hfound, hcompile⟩ :=
    exists_compile hstrict source (fun c => c.found.map (·.issue.code) == codes) hcodes
  refine ⟨_, _, hcompile, ?_⟩
  rw [← beq_iff_eq.mp hfound, locateAll, List.map_map]
  exact List.map_congr_left fun r _ => (notice_eq r.issue _).2.1

open Walk in
/-- Every limit is met twice or more, and reported once. -/
theorem compile_refusals_crowded :
    let o : Options := { maxMacroDepth := 1, maxMacroExpansions := 3, maxEvents := 2 }
    let source := "def p macro C \x7b c \x7d macro A \x7b $C \x7d " ++
      "measure 1 \x7b p: $A $A $U $U $C $C $C d d d \x7d"
    ∃ compiled l, compile o .shipped source = (.ok compiled, l) ∧
      compiled.notices.map (·.code) =
        ["MACRO_TOO_DEEP", "UNKNOWN_MACRO", "MACRO_BUDGET", "EVENT_LIMIT"] ∧
      ∃ n c, eval (walk n (opening (tokenize source))) (.start o .shipped) = .ok ([], c) ∧
        let log := encounters n (opening (tokenize source)) (.start o .shipped)
        OnceIf (compiled.notices.countP (·.code == "EVENT_LIMIT")) (∃ e, .event e false ∈ log) ∧
        OnceIf (compiled.notices.countP (·.code == "MACRO_BUDGET"))
          (∃ name, .call name true false true ∈ log) ∧
        OnceIf (compiled.notices.countP (·.tells (.unknownMacro "U")))
          (∃ deep spent, .call "U" false deep spent ∈ log) ∧
        OnceIf (compiled.notices.countP (·.tells (.macroTooDeep "C" 1)))
          (∃ spent, .call "C" true true spent ∈ log) := by
  intro o source
  obtain ⟨compiled, l, hcompile, hcodes⟩ := compile_codes (o := o) rfl source
    ["MACRO_TOO_DEEP", "UNKNOWN_MACRO", "MACRO_BUDGET", "EVENT_LIMIT"] (by decide +kernel)
  obtain ⟨n, c, hwalk, -, -, -, hlimit, hbudget, hunknown, hdeep, -⟩ := compile_refusals hcompile
  exact ⟨compiled, l, hcompile, hcodes, n, c, hwalk, hlimit, hbudget, hunknown "U", hdeep "C"⟩

def Encounter.call? : Encounter P → Option (String × Bool × Bool × Bool)
  | .call name defined deep spent => some (name, defined, deep, spent)
  | .event _ _ => none

lemma mem_of_mem_calls {log : List (Encounter P)} {name : String} {defined deep spent : Bool}
    (h : (name, defined, deep, spent) ∈ log.filterMap Encounter.call?) :
    .call name defined deep spent ∈ log := by
  obtain ⟨x, hx, hcall⟩ := List.mem_filterMap.mp h
  cases x with
  | event r room => cases hcall
  | call =>
    cases hcall
    exact hx

open Walk in
/-- A call where no further macro can be opened is not reported for that if its macro is not
defined. -/
theorem not_macroTooDeep_undefined :
    let o : Options := { maxMacroDepth := 1 }
    let source := "def p macro A = \x7b $B \x7d measure 1 \x7b p: $A \x7d"
    ∃ compiled l, compile o .shipped source = (.ok compiled, l) ∧
      .call "B" false true false ∈
        encounters 7 (opening (tokenize source)) (.start o .shipped) ∧
      compiled.notices.countP (·.tells (.macroTooDeep "B" 1)) = 0 := by
  intro o source
  obtain ⟨compiled, l, hcompile, hcodes⟩ := compile_codes (o := o) rfl source ["UNKNOWN_MACRO"]
    (by decide +kernel)
  refine ⟨compiled, l, hcompile, mem_of_mem_calls (by decide +kernel),
    List.countP_eq_zero.mpr fun n hn htells => ?_⟩
  have hcode : n.code ∈ ["UNKNOWN_MACRO"] := hcodes ▸ List.mem_map_of_mem hn
  rw [Notice.tells, Bool.and_eq_true, beq_iff_eq] at htells
  rw [htells.1] at hcode
  simp [Issue.code] at hcode

end Partitura
