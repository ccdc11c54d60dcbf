import Mathlib.Data.List.Forall2
import Partitura.Proofs.Blocks

/-!
Arguments in place of parameters.

The parameters of a macro are the names in parentheses behind its own name (`writtenParams`), each
of them once, in the order in which they come first. A call puts something in place of each token of
the body (`Fills`): for a call of a parameter the argument that has the same place among the
arguments, or nothing if there are not so many, and for any other token the token itself. All of it
is put in place at once. So an argument stands in the expansion as it was given, and what it holds
is not replaced again, even if it reads like a call of a parameter.
-/

namespace Partitura

open Run

variable {P : Type}

/-! ### Parameters -/

def endsParams (t : Token P) : Bool :=
  t.isPunct .closeParen || t.isPunct .openBrace || t.isPunct .equals

def isMark (t : Token P) : Bool :=
  match t.lexeme with
  | .punct _ => true
  | _ => false

/-- The names in parentheses behind the name of a macro, if a parenthesis opens there: those up to
the mark that ends them, without other marks, and without the dollar signs in front. -/
def writtenParams (ts : List (Token P)) : List String :=
  match ts.drop 2 with
  | [] => []
  | t :: rest =>
    if t.isPunct .openParen then
      ((rest.takeWhile (!endsParams ·)).filter (!isMark ·)).map fun u => bareName u.value
    else []

lemma readParams_eq (ts : List (Token P)) :
    (readParams ts).1 = (ts.takeWhile (!endsParams ·)).filter (!isMark ·) := by
  induction ts with
  | nil => rfl
  | cons t ts ih =>
    obtain ⟨lexeme, p⟩ := t
    rcases lexeme with mark | _ | _ | _
    · cases mark <;> first | rfl | exact ih
    all_goals exact congrArg (_ :: ·) ih

lemma names_readMacro (ts : List (Token P)) :
    (readMacro ts).1.names = (writtenParams ts).eraseDups := by
  have hparams : (readMacro ts).1.params = (readParamList (ts.drop 2)).1 := by
    rw [readMacro_eq, ← List.tail_drop, List.drop_one]
    dsimp only
    split <;> rfl
  rw [MacroBlock.names, hparams, writtenParams]
  cases ts.drop 2 with
  | nil => rfl
  | cons t rest =>
    obtain ⟨lexeme, p⟩ := t
    rcases lexeme with mark | _ | _ | _
    · cases mark with
      | openParen =>
        rw [readParamList, readParams_eq]
        rfl
      | _ => rfl
    all_goals rfl

lemma nodup_eraseDups (names : List String) : names.eraseDups.Nodup := by
  induction names using List.reverseRecOn with
  | nil => exact .nil
  | append_singleton names p ih =>
    rw [eraseDups_concat]
    split_ifs with hp
    · exact ih
    · rw [← List.concat_eq_append]
      exact List.Nodup.concat (mt List.mem_eraseDups.mp hp) ih

/-! ### Expansion -/

/-- What stands for a token of the body: an argument as it is for a call of a parameter, nothing if
the argument is missing, and any other token for itself. -/
inductive Fills (names : List String) (args : List (List (Token P))) (t : Token P) :
    List (Token P) → Prop
  | argument {i : Nat} {p : String} {arg : List (Token P)} (hcall : t.lexeme = .call p)
      (hparam : names[i]? = some p) (harg : args[i]? = some arg) : Fills names args t arg
  | missing {i : Nat} {p : String} (hcall : t.lexeme = .call p) (hparam : names[i]? = some p)
      (hnone : args.length ≤ i) : Fills names args t []
  | kept (hother : ∀ p ∈ names, t.lexeme ≠ .call p) : Fills names args t [t]

namespace Macro

def fill (m : Macro P) (args : List (List (Token P))) (t : Token P) : List (Token P) :=
  match m.slot? t with
  | some i => (args[i]?).getD []
  | none => [t]

variable {m : Macro P} {args : List (List (Token P))} {t : Token P} {i : Nat}

lemma expand_eq (m : Macro P) (args : List (List (Token P))) :
    m.expand args = (m.body.map (m.fill args)).flatten := List.flatMap_def

lemma fill_of_slot (h : m.slot? t = some i) : m.fill args t = (args[i]?).getD [] := by
  rw [fill, h]

lemma fill_of_not_slot (h : m.slot? t = none) : m.fill args t = [t] := by
  rw [fill, h]

/-- Among distinct names, a name has one place. -/
lemma findIdx?_eq_some_iff {names : List String} (hnames : names.Nodup) {p : String} :
    names.findIdx? (· == p) = some i ↔ names[i]? = some p := by
  have hplace {j : Nat} (hj : names.findIdx? (· == p) = some j) : names[j]? = some p := by
    obtain ⟨hlt, hp, -⟩ := List.findIdx?_eq_some_iff_getElem.mp hj
    rw [List.getElem?_eq_getElem hlt, beq_iff_eq.mp hp]
  refine ⟨hplace, fun hi => ?_⟩
  obtain ⟨hlt, -⟩ := List.getElem?_eq_some_iff.mp hi
  have hsome : (names.findIdx? (· == p)).isSome = true := by
    simpa using List.mem_of_getElem? hi
  obtain ⟨j, hj⟩ := Option.isSome_iff_exists.mp hsome
  obtain rfl := (List.getElem?_inj hlt hnames).mp (hi.trans (hplace hj).symm)
  exact hj

/-- A token is replaced by an argument if it calls the parameter at the same place. -/
lemma slot?_eq_some_iff (hparams : m.params.Nodup) :
    m.slot? t = some i ↔ ∃ p, t.lexeme = .call p ∧ m.params[i]? = some p := by
  rw [slot?]
  cases t.lexeme with
  | call name => simp [findIdx?_eq_some_iff hparams]
  | _ => simp

lemma slot?_eq_none_iff : m.slot? t = none ↔ ∀ p ∈ m.params, t.lexeme ≠ .call p := by
  rw [slot?]
  cases t.lexeme with
  | call name =>
    simp only [List.findIdx?_eq_none_iff, beq_eq_false_iff_ne, ne_eq, Lexeme.call.injEq]
    exact forall₂_congr fun p _ => not_congr eq_comm
  | _ => simp

lemma fills_iff (hparams : m.params.Nodup) {part : List (Token P)} :
    Fills m.params args t part ↔ m.fill args t = part := by
  constructor
  · rintro (⟨hcall, hparam, harg⟩ | ⟨hcall, hparam, hnone⟩ | hother)
    · rw [fill_of_slot ((slot?_eq_some_iff hparams).mpr ⟨_, hcall, hparam⟩), harg, Option.getD_some]
    · rw [fill_of_slot ((slot?_eq_some_iff hparams).mpr ⟨_, hcall, hparam⟩),
        List.getElem?_eq_none hnone, Option.getD_none]
    · exact fill_of_not_slot (slot?_eq_none_iff.mpr hother)
  · rintro rfl
    cases hslot : m.slot? t with
    | none =>
      rw [fill_of_not_slot hslot]
      exact .kept (slot?_eq_none_iff.mp hslot)
    | some i =>
      obtain ⟨p, hcall, hparam⟩ := (slot?_eq_some_iff hparams).mp hslot
      rw [fill_of_slot hslot]
      cases harg : args[i]? with
      | none => exact .missing hcall hparam (List.getElem?_eq_none_iff.mp harg)
      | some arg => exact .argument hcall hparam harg

/-- An expansion is put together from what stands for the tokens of the body. -/
lemma expand_eq_iff (hparams : m.params.Nodup) {out : List (Token P)} :
    m.expand args = out ↔
      ∃ parts, List.Forall₂ (Fills m.params args) m.body parts ∧ parts.flatten = out := by
  have hparts (parts : List (List (Token P))) :
      List.Forall₂ (Fills m.params args) m.body parts ↔ m.body.map (m.fill args) = parts := by
    have hfills : Fills m.params args = fun t part => m.fill args t = part := by
      funext t part
      exact propext (fills_iff hparams)
    have hmap := List.forall₂_map_left_iff (R := Eq) (f := m.fill args) (l := m.body) (u := parts)
    rw [hfills, ← hmap, List.forall₂_eq_eq_eq]
  simp only [hparts, exists_eq_left', expand_eq]

/-- A call of a parameter that is left in an expansion stands in one of the arguments. -/
lemma mem_arg_of_mem_expand (hparams : m.params.Nodup) (ht : t ∈ m.expand args) {p : String}
    (hp : p ∈ m.params) (hcall : t.lexeme = .call p) :
    ∃ arg ∈ args.take m.params.length, t ∈ arg := by
  rw [expand_eq] at ht
  obtain ⟨part, hpart, ht⟩ := List.mem_flatten.mp ht
  obtain ⟨u, -, hu⟩ := List.mem_map.mp hpart
  rcases (fills_iff hparams).mpr hu with ⟨-, hparam, harg⟩ | ⟨-, -, -⟩ | hother
  · have hlt := (List.getElem?_eq_some_iff.mp hparam).1
    exact ⟨part, List.mem_of_getElem? ((List.getElem?_take_of_lt hlt).trans harg), ht⟩
  · simp at ht
  · -- a token that stands for itself is no call of a parameter
    rw [List.mem_singleton.mp ht] at hcall
    exact absurd hcall (hother p hp)

/-- An argument whose parameter is called in the body stands in the expansion as it is. -/
lemma infix_expand (hparams : m.params.Nodup) {arg : List (Token P)} (ht : t ∈ m.body) {p : String}
    (hcall : t.lexeme = .call p) (hparam : m.params[i]? = some p) (harg : args[i]? = some arg) :
    arg <:+: m.expand args := by
  have hfill := (fills_iff hparams).mp (.argument hcall hparam harg)
  rw [expand_eq, ← hfill]
  exact List.infix_of_mem_flatten (List.mem_map_of_mem ht)

/-- Arguments beyond the parameters do not count. -/
lemma expand_take (hparams : m.params.Nodup) (args : List (List (Token P))) :
    m.expand (args.take m.params.length) = m.expand args := by
  rw [expand_eq, expand_eq]
  congr 2
  funext t
  cases hslot : m.slot? t with
  | none => rw [fill_of_not_slot hslot, fill_of_not_slot hslot]
  | some i =>
    obtain ⟨p, -, hparam⟩ := (slot?_eq_some_iff hparams).mp hslot
    have hlt := (List.getElem?_eq_some_iff.mp hparam).1
    rw [fill_of_slot hslot, fill_of_slot hslot, List.getElem?_take_of_lt hlt]

end Macro

/-! ### Defined macros -/

/-- A macro that is defined holds what was read of it, and is found under its name. -/
lemma defineMacro_eq_ok {b : MacroBlock P} {c d : Context P} {m : Macro P}
    (h : eval (defineMacro b) c = .ok (some m, d)) :
    b.body = some m.body ∧ m.params = b.names ∧ get? b.name d.macros = some m := by
  cases hbody : b.body with
  | none =>
    obtain ⟨e, hparams⟩ := exists_declareParams b.name b.params c
    rw [defineMacro, eval_bind, hparams, ok_bind, hbody] at h
    cases h
  | some body =>
    obtain ⟨e, hdefine, hget⟩ := eval_defineMacro hbody c
    rw [hdefine] at h
    cases h
    exact ⟨rfl, rfl, hget⟩

/-- **Arguments replace parameters all at once, and are not read again.** Where a macro is defined,
its body is the block in the text, and its parameters are the written names, each once. Its
expansion with any arguments is put together from one part for each token of the body, in order: the
argument at the place of the parameter for a call of a parameter, nothing if there are fewer
arguments, and otherwise the token. So the argument of a parameter that is called stands in the
expansion as it is, every call of a parameter that is left there comes from an argument, and
arguments beyond the parameters do not count. -/
theorem expand_simultaneous {ts : List (Token P)} {c d : Context P} {m : Macro P}
    (h : eval (defineMacro (readMacro ts).1) c = .ok (some m, d)) :
    get? (readMacro ts).1.name d.macros = some m ∧
    (∃ start close, Captures ts start close m.body (readMacro ts).2) ∧
    m.params = (writtenParams ts).eraseDups ∧
    ∀ args : List (List (Token P)),
      (∀ out, m.expand args = out ↔
        ∃ parts, List.Forall₂ (Fills m.params args) m.body parts ∧ parts.flatten = out) ∧
      (∀ t ∈ m.body, ∀ (i : Nat) p arg, t.lexeme = .call p → m.params[i]? = some p →
        args[i]? = some arg → arg <:+: m.expand args) ∧
      (∀ t ∈ m.expand args, ∀ p ∈ m.params, t.lexeme = .call p →
        ∃ arg ∈ args.take m.params.length, t ∈ arg) ∧
      m.expand (args.take m.params.length) = m.expand args := by
  obtain ⟨hbody, hnames, hget⟩ := defineMacro_eq_ok h
  have hwritten : m.params = (writtenParams ts).eraseDups := hnames.trans (names_readMacro ts)
  have hparams : m.params.Nodup := hwritten ▸ nodup_eraseDups _
  refine ⟨hget, exists_captures_readMacro hbody, hwritten, fun args => ⟨fun out => ?_, ?_, ?_, ?_⟩⟩
  · exact Macro.expand_eq_iff hparams
  · intro t ht i p arg hcall hparam harg
    exact Macro.infix_expand hparams ht hcall hparam harg
  · intro t ht p hp hcall
    exact Macro.mem_arg_of_mem_expand hparams ht hp hcall
  · exact Macro.expand_take hparams args

/-- A macro with two parameters, one of them written twice, in a list that is not closed:
`macro M($a, "b" a = { $a x $b $c }`. -/
def slackMacro : List (Token Unit) :=
  [sign "macro", sign "M", mark .openParen, callOf "a", mark .comma, ⟨.quoted "b", ()⟩, sign "a",
    mark .equals, mark .openBrace, callOf "a", sign "x", callOf "b", callOf "c", mark .closeBrace]

/-- The first argument reads like a call of the second parameter; the second argument is missing, or
one too many is given. -/
theorem expand_simultaneous_slack :
    ∃ m d, eval (defineMacro (readMacro slackMacro).1) (Context.start {} .shipped) =
        .ok (some m, d) ∧
      m.params = ["a", "b"] ∧
      m.expand [[callOf "b", sign "y"]] = [callOf "b", sign "y", sign "x", callOf "c"] ∧
      m.expand [[callOf "b"], [sign "z"], [sign "w"]] =
        [callOf "b", sign "x", sign "z", callOf "c"] := by
  have hbody : (readMacro slackMacro).1.body =
      some [callOf "a", sign "x", callOf "b", callOf "c"] := rfl
  have hwritten : (writtenParams slackMacro).eraseDups = ["a", "b"] := by decide
  obtain ⟨d, hdefine, -⟩ := eval_defineMacro hbody (Context.start {} .shipped)
  obtain ⟨-, -, hparams, hexpand⟩ := expand_simultaneous hdefine
  rw [hwritten] at hparams
  refine ⟨_, d, hdefine, hparams, ?_, ?_⟩
  · refine ((hexpand _).1 _).mpr ⟨[[callOf "b", sign "y"], [sign "x"], [], [callOf "c"]], ?_, rfl⟩
    rw [hparams]
    exact .cons (.argument (i := 0) rfl rfl rfl) (.cons (.kept (by decide))
      (.cons (.missing (i := 1) rfl rfl (by decide)) (.cons (.kept (by decide)) .nil)))
  · refine ((hexpand _).1 _).mpr ⟨[[callOf "b"], [sign "x"], [sign "z"], [callOf "c"]], ?_, rfl⟩
    rw [hparams]
    exact .cons (.argument (i := 0) rfl rfl rfl) (.cons (.kept (by decide))
      (.cons (.argument (i := 1) rfl rfl rfl) (.cons (.kept (by decide)) .nil)))

end Partitura
