import Mathlib.Data.List.Nodup
import Partitura.Proofs.Definitions
import Partitura.Proofs.Reachable

/-!
The instruments of a state, their groups, and the voices that have a cursor.

An instrument is what its first definition makes. Groups keep the names of the instruments that
were defined in them, in the order of these definitions: `Tabled` says so in one equation, and
what a definition does to it (`Tabled.define`) carries it through every declaration.
-/

namespace Partitura

open Run

variable {P : Type}

/-! ### Tables -/

/-- The instruments are those of some definitions: each name once, in the order of the first
definitions, and with the fields that the first definition gives. -/
structure OfDefinitions (l : Library) (defs : List (Option String × Definition P))
    (instruments : List Instrument) : Prop where
  distinct : (instruments.map (·.id)).Nodup
  order : instruments.map (·.id) = (defs.map (·.2.id.value)).eraseDups
  first : ∀ i ∈ instruments, ∃ group d, defs.find? (·.2.id.value == i.id) = some (group, d) ∧
    i.label = d.label ∧ i.group = group ∧ d.Makes l group i

/-- An instrument with a group stands in one group, once, and that has the label it names; one
without stands in none. Only instruments stand in groups. -/
structure Grouped (groups : List Group) (instruments : List Instrument) : Prop where
  once : ∀ i ∈ instruments,
    (groups.flatMap (·.members)).count i.id = if i.group.isSome then 1 else 0
  label : ∀ i ∈ instruments, ∀ g ∈ groups, i.id ∈ g.members → i.group = some g.label
  defined : ∀ g ∈ groups, ∀ id ∈ g.members, ∃ i ∈ instruments, i.id = id

def Context.Voiced (c : Context P) : Prop := ∀ p ∈ c.cursors, c.defines p.1.instrument = true

/-- The members of groups, each with the label of its group. -/
def memberships (groups : List Group) : List (String × String) :=
  groups.flatMap fun g => g.members.map (g.label, ·)

def grouped (instruments : List Instrument) : List (String × String) :=
  instruments.filterMap fun i => i.group.map (·, i.id)

lemma mem_memberships {groups : List Group} {label id : String} :
    (label, id) ∈ memberships groups ↔ ∃ g ∈ groups, g.label = label ∧ id ∈ g.members := by
  simp [memberships, List.mem_flatMap, and_comm]

lemma mem_grouped {instruments : List Instrument} {label id : String} :
    (label, id) ∈ grouped instruments ↔ ∃ i ∈ instruments, i.group = some label ∧ i.id = id := by
  simp [grouped, List.mem_filterMap]

lemma map_memberships (groups : List Group) :
    (memberships groups).map (·.2) = groups.flatMap (·.members) := by
  simp [memberships, List.map_flatMap, Function.comp_def]

lemma map_grouped (instruments : List Instrument) :
    (grouped instruments).map (·.2) = (instruments.filter (·.group.isSome)).map (·.id) := by
  induction instruments with
  | nil => rfl
  | cons i is ih =>
    cases hgroup : i.group <;> simp_all [grouped]

/-- Groups whose members are the grouped instruments, in one order, are as they should be. -/
lemma Grouped.of_memberships {groups : List Group} {instruments : List Instrument}
    (hdistinct : (instruments.map (·.id)).Nodup)
    (h : memberships groups = grouped instruments) : Grouped groups instruments where
  once := by
    intro i hi
    have hnodup : ((instruments.filter (·.group.isSome)).map (·.id)).Nodup :=
      hdistinct.sublist (List.filter_sublist.map _)
    rw [← map_memberships, h, map_grouped]
    split
    · rename_i hsome
      refine List.count_eq_one_of_mem hnodup (List.mem_map_of_mem ?_)
      exact List.mem_filter.mpr ⟨hi, hsome⟩
    · rename_i hnone
      refine List.count_eq_zero.mpr fun hmem => hnone ?_
      obtain ⟨j, hj, hid⟩ := List.mem_map.mp hmem
      obtain ⟨hj, hsome⟩ := List.mem_filter.mp hj
      exact List.inj_on_of_nodup_map hdistinct hj hi hid ▸ hsome
  label := by
    intro i hi g hg hmem
    have hlabel := mem_memberships.mpr ⟨g, hg, rfl, hmem⟩
    rw [h] at hlabel
    obtain ⟨j, hj, hgroup, hid⟩ := mem_grouped.mp hlabel
    exact List.inj_on_of_nodup_map hdistinct hj hi hid ▸ hgroup
  defined := by
    intro g hg id hmem
    have hlabel := mem_memberships.mpr ⟨g, hg, rfl, hmem⟩
    rw [h] at hlabel
    obtain ⟨i, hi, -, hid⟩ := mem_grouped.mp hlabel
    exact ⟨i, hi, hid⟩

lemma eraseDups_concat (xs : List String) (x : String) :
    (xs ++ [x]).eraseDups = if x ∈ xs then xs.eraseDups else xs.eraseDups ++ [x] := by
  rw [List.eraseDups_append]
  split
  · rename_i hmem
    simp [List.removeAll, hmem]
  · rename_i hmem
    simp [List.removeAll, hmem, List.eraseDups_cons]

namespace OfDefinitions

variable {l : Library} {defs : List (Option String × Definition P)}
  {instruments : List Instrument} {d : Definition P} {group : Option String}

/-- A name is defined if it stands in a definition. -/
lemma mem_iff (h : OfDefinitions l defs instruments) {id : String} :
    id ∈ instruments.map (·.id) ↔ id ∈ defs.map (·.2.id.value) := by
  rw [h.order, List.mem_eraseDups]

/-- Later definitions do not change which is the first. -/
lemma first_append (h : OfDefinitions l defs instruments)
    (more : List (Option String × Definition P)) {i : Instrument} (hi : i ∈ instruments) :
    ∃ group d, (defs ++ more).find? (·.2.id.value == i.id) = some (group, d) ∧
      i.label = d.label ∧ i.group = group ∧ d.Makes l group i := by
  obtain ⟨group, d, hfind, hrest⟩ := h.first i hi
  refine ⟨group, d, ?_, hrest⟩
  rw [List.find?_append, hfind]
  rfl

lemma repeated (h : OfDefinitions l defs instruments) (group : Option String)
    (hold : d.id.value ∈ instruments.map (·.id)) :
    OfDefinitions l (defs ++ [(group, d)]) instruments where
  distinct := h.distinct
  order := by
    rw [List.map_append, List.map_singleton, eraseDups_concat, if_pos (h.mem_iff.mp hold)]
    exact h.order
  first := fun _ hi => h.first_append _ hi

lemma fresh (h : OfDefinitions l defs instruments) (hnew : d.id.value ∉ instruments.map (·.id))
    {i : Instrument} (hi : d.Makes l group i) :
    OfDefinitions l (defs ++ [(group, d)]) (instruments ++ [i]) := by
  obtain ⟨hid, hlabel, hgroup⟩ : i.id = d.id.value ∧ i.label = d.label ∧ i.group = group := by
    simpa [Instrument.names] using hi.names
  have hnone : d.id.value ∉ defs.map (·.2.id.value) := fun hmem => hnew (h.mem_iff.mpr hmem)
  refine ⟨?_, ?_, fun j hj => ?_⟩
  · rw [List.map_append, List.map_singleton, hid, List.nodup_append]
    refine ⟨h.distinct, List.nodup_singleton _, fun x hx y hy => ?_⟩
    rw [List.mem_singleton.mp hy]
    rintro rfl
    exact hnew hx
  · rw [List.map_append, List.map_append, List.map_singleton, List.map_singleton, eraseDups_concat,
      if_neg hnone, h.order, hid]
  · rcases List.mem_append.mp hj with hj | hj
    · exact h.first_append _ hj
    · obtain rfl := List.mem_singleton.mp hj
      have hfind : defs.find? (·.2.id.value == j.id) = none := by
        refine List.find?_eq_none.mpr fun p hp heq => hnone ?_
        rw [← hid, ← beq_iff_eq.mp heq]
        exact List.mem_map_of_mem hp
      refine ⟨group, d, ?_, hlabel, hgroup, hi⟩
      rw [List.find?_append, hfind]
      simp [hid]

end OfDefinitions

/-- The tables of a state after some definitions; the last of the groups may still be open. -/
structure Tabled (l : Library) (defs : List (Option String × Definition P)) (groups : List Group)
    (c : Context P) : Prop where
  library : c.library.Like l
  instruments : OfDefinitions l defs c.instruments
  groups : memberships groups = grouped c.instruments
  voiced : c.Voiced

lemma Context.defines_iff {c : Context P} {id : String} :
    c.defines id = true ↔ id ∈ c.instruments.map (·.id) := by
  simp [Context.defines, List.any_eq_true]

def Context.tables (c : Context P) :
    Library × List Instrument × List Group × List (VoiceKey × Cursor) :=
  (c.library, c.instruments, c.groups, c.cursors)

namespace Tabled

variable {l : Library} {defs : List (Option String × Definition P)} {groups groups' : List Group}
  {c e : Context P}

lemma congr (h : Tabled l defs c.groups c) (htables : e.tables = c.tables) :
    Tabled l defs e.groups e := by
  simp only [Context.tables, Prod.mk.injEq] at htables
  obtain ⟨hlibrary, hinstruments, hgroups, hcursors⟩ := htables
  refine ⟨?_, ?_, ?_, ?_⟩
  · rw [hlibrary]
    exact h.library
  · rw [hinstruments]
    exact h.instruments
  · rw [hgroups, hinstruments]
    exact h.groups
  · rw [Context.Voiced, hcursors]
    simp only [Context.defines, hinstruments]
    exact h.voiced

lemma consulted (h : Tabled l defs groups c) (he : c.Consulted e) : Tabled l defs groups e := by
  obtain ⟨library, reports, hlike⟩ := he
  exact ⟨hlike.trans h.library, h.instruments, h.groups, h.voiced⟩

lemma repeated (h : Tabled l defs groups c) {d : Definition P} (group : Option String)
    (hold : c.defines d.id.value = true) : Tabled l (defs ++ [(group, d)]) groups c :=
  { h with instruments := h.instruments.repeated group (Context.defines_iff.mp hold) }

/-- An instrument of a new name has no cursors to lose. -/
lemma filter_cursors (h : Tabled l defs groups c) {id : String} (hnew : c.defines id = false) :
    c.cursors.filter (·.1.instrument ≠ id) = c.cursors := by
  refine List.filter_eq_self.mpr fun p hp => ?_
  have hdefined := h.voiced p hp
  simp only [ne_eq, decide_not, Bool.not_eq_eq_eq_not, Bool.not_true, decide_eq_false_iff_not]
  rintro rfl
  rw [hnew] at hdefined
  cases hdefined

lemma fresh (h : Tabled l defs groups c) {d : Definition P} {group : Option String}
    {i : Instrument} (hnew : c.defines d.id.value = false) (hi : d.Makes l group i)
    (hgroups : memberships groups' = memberships groups ++ (group.map (·, i.id)).toList) :
    Tabled l (defs ++ [(group, d)]) groups' { c with instruments := c.instruments ++ [i] } := by
  have hout : d.id.value ∉ c.instruments.map (·.id) := by
    rw [← Context.defines_iff, hnew]
    exact Bool.false_ne_true
  have hgroup : i.group = group := congrArg (·.2.2) hi.names
  refine ⟨h.library, h.instruments.fresh hout hi, ?_, fun p hp => ?_⟩
  · rw [hgroups, h.groups, grouped, grouped, List.filterMap_append]
    cases group <;> simp [hgroup]
  · have hdefined := Context.defines_iff.mp (h.voiced p hp)
    rw [Context.defines_iff, List.map_append]
    exact List.mem_append_left _ hdefined

/-- **What a definition does to the tables.** -/
lemma define {group : Option String} {b : InstrumentBlock P} {r : Option Instrument}
    (h : Tabled l defs groups c) (hdefined : Defined l group b c r e)
    (hgroups : memberships groups' =
      memberships groups ++ (r.bind fun i => group.map (·, i.id)).toList) :
    Tabled l (defs ++ b.definitions group) groups' e ∧ e.cursors = c.cursors ∧
      e.groups = c.groups := by
  cases hdefined with
  | incomplete hbody he =>
    have hsame : memberships groups' = memberships groups := by simpa using hgroups
    have htabled := h.consulted he
    refine ⟨?_, by cases he; rfl, by cases he; rfl⟩
    simp only [InstrumentBlock.definitions, hbody, Option.map_none, Option.toList_none,
      List.append_nil]
    exact { htabled with groups := hsame.trans htabled.groups }
  | @repeated d _ hbody hold he =>
    have hsame : memberships groups' = memberships groups := by simpa using hgroups
    have htabled := (h.repeated group hold).consulted he
    refine ⟨?_, by cases he; rfl, by cases he; rfl⟩
    simp only [InstrumentBlock.definitions, hbody, Option.map_some, Option.toList_some]
    exact { htabled with groups := hsame.trans htabled.groups }
  | @fresh d i e hbody hnew hi he =>
    have htabled := h.consulted he
    have hnew' : e.defines d.id.value = false := by
      cases he
      exact hnew
    rw [htabled.filter_cursors hnew']
    refine ⟨?_, by cases he; rfl, by cases he; rfl⟩
    simp only [InstrumentBlock.definitions, hbody, Option.map_some, Option.toList_some]
    exact htabled.fresh hnew' hi hgroups

end Tabled

/-! ### Declarations -/

namespace Run

def defineMembers (label : String) (blocks : List (InstrumentBlock P × Nat))
    (members : List String) : Run P (List String) :=
  blocks.foldlM (fun members p => do
    match ← placed (.reached p.2) (defineInstrument (some label) p.1) with
    | some i => return members ++ [i.id]
    | none => return members) members

lemma defineGroup_eq {b : GroupBlock P} {blocks : List (InstrumentBlock P × Nat)}
    (h : b.members = some blocks) :
    defineGroup b = defineMembers b.label blocks [] >>= fun members =>
      let attributes := settle (b.attributes.map fun a => (a.key, a.value))
      modify fun c => { c with groups := c.groups ++ [⟨b.label, attributes, members⟩] } := by
  unfold defineGroup
  rw [h]
  rfl

variable {l : Library} {defs : List (Option String × Definition P)} {c e : Context P}

lemma defineMembers_tabled {label : String} {attributes : List (String × String)}
    {blocks : List (InstrumentBlock P × Nat)} {members members' : List String}
    {groups : List Group} (h : Tabled l defs (groups ++ [⟨label, attributes, members⟩]) c)
    (hrun : eval (defineMembers label blocks members) c = .ok (members', e)) :
    Tabled l (defs ++ blocks.flatMap fun p => p.1.definitions (some label))
        (groups ++ [⟨label, attributes, members'⟩]) e ∧
      e.cursors = c.cursors ∧ e.groups = c.groups := by
  induction blocks generalizing defs members c with
  | nil =>
    obtain ⟨rfl, rfl⟩ : members = members' ∧ c = e := by simpa [defineMembers] using hrun
    simpa using h
  | cons p blocks ih =>
    rw [defineMembers, List.foldlM_cons, eval_bind] at hrun
    obtain ⟨⟨members₁, c₁⟩, hhead, hrest⟩ := bind_eq_ok.mp hrun
    rw [eval_bind, eval_placed] at hhead
    obtain ⟨⟨r, d⟩, hdefine, hhead⟩ := bind_eq_ok.mp hhead
    have hcases := defineInstrument_cases h.library hdefine
    have hdone : d = c₁ ∧
        memberships (groups ++ [⟨label, attributes, members₁⟩]) =
          memberships (groups ++ [⟨label, attributes, members⟩]) ++
            (r.bind fun i => (some label).map (·, i.id)).toList := by
      cases r with
      | none =>
        obtain ⟨rfl, rfl⟩ : members = members₁ ∧ d = c₁ := by simpa using hhead
        simp
      | some i =>
        obtain ⟨rfl, rfl⟩ : members ++ [i.id] = members₁ ∧ d = c₁ := by simpa using hhead
        simp [memberships]
    obtain ⟨rfl, hgroups⟩ := hdone
    obtain ⟨htabled, hcursors, hsame⟩ := h.define hcases hgroups
    obtain ⟨htabled', hcursors', hsame'⟩ := ih htabled hrest
    refine ⟨?_, hcursors'.trans hcursors, hsame'.trans hsame⟩
    rw [List.flatMap_cons, ← List.append_assoc]
    exact htabled'

lemma defineGroup_tabled {b : GroupBlock P} (h : Tabled l defs c.groups c)
    (hrun : eval (defineGroup b) c = .ok ((), e)) :
    Tabled l (defs ++ (Declaration.group b).definitions) e.groups e ∧ e.cursors = c.cursors := by
  cases hmembers : b.members with
  | none =>
    unfold defineGroup at hrun
    rw [hmembers] at hrun
    obtain rfl : c.note (.missingBlock (textOf b.keyword)) b.keyword = e := by simpa using hrun
    rw [Declaration.definitions, hmembers, Option.getD_none, List.flatMap_nil, List.append_nil]
    exact ⟨h.consulted (.intro c.library _ (.refl _)), rfl⟩
  | some blocks =>
    rw [defineGroup_eq hmembers, eval_bind] at hrun
    obtain ⟨⟨members, d⟩, hblocks, hclose⟩ := bind_eq_ok.mp hrun
    obtain rfl : _ = e := by simpa using hclose
    -- the group is open while its members are defined, and stands behind the others then
    have hopen : Tabled l defs (c.groups ++
        [⟨b.label, settle (b.attributes.map fun a => (a.key, a.value)), []⟩]) c :=
      { h with groups := by simpa [memberships] using h.groups }
    obtain ⟨htabled, hcursors, hsame⟩ := defineMembers_tabled hopen hblocks
    refine ⟨?_, hcursors⟩
    simp only [Declaration.definitions, hmembers, Option.getD_some, hsame]
    exact ⟨htabled.library, htabled.instruments, htabled.groups, htabled.voiced⟩

lemma defineMacro_keeps_of {I : Context P → Prop}
    (h : ∀ (c : Context P) macros reports, I c → I { c with macros, reports })
    (b : MacroBlock P) : Keeps I (fun _ => True) (defineMacro b) fun _ => True := by
  have report (issue : Issue) (t : Option (Token P)) :
      Keeps I (fun _ => True) (Run.report issue t) fun _ => True :=
    Keeps.modify fun c hc => h c c.macros _ hc
  have params : Keeps I (fun _ => True) (declareParams b.name b.params) fun _ => True := by
    refine Keeps.foldlM trivial fun names _ t _ => ?_
    dsimp only
    split
    · exact (report _ _).bind fun _ _ => Keeps.pure trivial
    · exact Keeps.pure trivial
  refine params.bind fun params _ => ?_
  split
  · exact (report _ _).bind fun _ _ => Keeps.pure trivial
  · exact (Keeps.modify fun c hc => h c _ c.reports hc).bind fun _ _ => Keeps.pure trivial

lemma fst_of_mem_setCursor {key : VoiceKey} {cursor : Cursor} {l : List (VoiceKey × Cursor)}
    {p : VoiceKey × Cursor} (h : p ∈ Context.setCursor key cursor l) : p.1 = key ∨ p ∈ l := by
  induction l with
  | nil => exact .inl (congrArg (·.1) (List.mem_singleton.mp h))
  | cons q rest ih =>
    rw [Context.setCursor] at h
    split at h
    · rename_i hq
      rcases List.mem_cons.mp h with rfl | h
      · exact .inl hq
      · exact .inr (List.mem_cons_of_mem q h)
    · rcases List.mem_cons.mp h with rfl | h
      · exact .inr List.mem_cons_self
      · exact (ih h).imp_right (List.mem_cons_of_mem q)

def Staged (l : Library) (defs : List (Option String × Definition P)) (s : Stage)
    (c : Context P) : Prop :=
  Tabled l defs c.groups c ∧ c.defines s.key.instrument = true

lemma defines_enter (c : Context P) (key : VoiceKey) (t : Option (Token P)) (r : Rendering)
    (id : String) : (c.enter key t r).defines id = c.defines id := by
  rw [Context.defines, Context.enter_instruments, ← Context.defines]

/-- An event gives a cursor to a voice of an instrument that is defined. -/
lemma enter_tabled (h : Tabled l defs c.groups c) {key : VoiceKey}
    (hdefined : c.defines key.instrument = true) (t : Option (Token P)) (r : Rendering) :
    Tabled l defs (c.enter key t r).groups (c.enter key t r) := by
  refine ⟨?_, ?_, ?_, fun p hp => ?_⟩
  · rw [Context.enter_library]
    exact h.library
  · rw [Context.enter_instruments]
    exact h.instruments
  · rw [Context.enter_groups, Context.enter_instruments]
    exact h.groups
  · obtain ⟨tick, hcursors⟩ := c.enter_cursors key t r
    rw [hcursors] at hp
    rw [defines_enter]
    rcases fst_of_mem_setCursor hp with hkey | hp
    · rw [hkey]
      exact hdefined
    · exact h.voiced p hp

lemma step_staged {s : Stage} {offset offset' : Int} {step : Step P} (h : Staged l defs s c)
    (hrun : eval (Run.step s offset step) c = .ok (offset', e)) : Staged l defs s e := by
  obtain ⟨hc, hdefined⟩ := h
  rcases step_cases hrun with ⟨w, r, -, -, -, rfl⟩ | ⟨-, -, rfl⟩ | ⟨issue, t, -, -, rfl⟩
  · exact ⟨enter_tabled hc hdefined w.anchor r, (defines_enter c _ _ _ _).trans hdefined⟩
  · exact ⟨hc.congr rfl, hdefined⟩
  · exact ⟨hc.congr rfl, hdefined⟩

lemma perform_staged (s : Stage) (items : List (Placed (Item P))) :
    Keeps (Staged l defs s) (fun _ => True) (perform s items) fun _ => True := by
  refine Keeps.get_bind fun c _ => Keeps.foldlM trivial fun offset _ p _ => Keeps.placed ?_
  intro c hc
  cases hrun : eval (Run.step s offset p.value) c with
  | error f => exact .error trivial
  | ok q => exact .ok (step_staged hc hrun) trivial

lemma playEntry_tabled (base : Int) (measure : Option Int) (entry : Entry P) :
    Keeps (fun c => Tabled l defs c.groups c) (fun _ => True) (playEntry base measure entry)
      fun _ => True := by
  cases entry with
  | header b =>
    exact applyHeader_keeps_of (fun _ _ _ hc => hc.congr rfl) b
  | part id voices =>
    intro c hc
    rw [playEntry, eval_bind, eval_get, ok_bind]
    dsimp only
    cases hfound : c.instrument? id with
    | none => exact .ok hc trivial
    | some i =>
      have hdefined : c.defines i.id = true := by
        rw [Context.defines_iff]
        exact List.mem_map_of_mem (List.mem_of_find?_eq_some hfound)
      have hparts : Keeps (fun c => Tabled l defs c.groups c ∧ c.defines i.id = true)
          (fun _ => True) (playPart i voices base measure) fun _ => True :=
        Keeps.forM fun v _ => (perform_staged ⟨i, v.voice, base, measure⟩ v.items).discard
      exact (hparts c ⟨hc, hdefined⟩).imp (fun _ h => h.1) fun _ h => h

lemma defineInstrument_tabled {b : InstrumentBlock P} (h : Tabled l defs c.groups c)
    (hrun : eval (discard (defineInstrument none b)) c = .ok ((), e)) :
    Tabled l (defs ++ b.definitions none) e.groups e ∧ e.cursors = c.cursors := by
  obtain ⟨r, hdefine⟩ := eval_discard_eq_ok hrun
  have hcases := defineInstrument_cases h.library hdefine
  have hgroups : memberships c.groups =
      memberships c.groups ++ (r.bind fun i => (none : Option String).map (·, i.id)).toList := by
    simp
  obtain ⟨htabled, hcursors, hsame⟩ := h.define hcases hgroups
  rw [hsame]
  exact ⟨htabled, hcursors⟩

/-- **Every declaration keeps the tables**, with the definitions in it behind the others. -/
lemma declare_tabled {d : Declaration P} (h : Tabled l defs c.groups c)
    (hrun : eval (declare d) c = .ok ((), e)) :
    Tabled l (defs ++ d.definitions) e.groups e := by
  have hkeeps (hx : Keeps (fun c => Tabled l defs c.groups c) (fun _ => True) (declare d)
      fun _ => True) : Tabled l (defs ++ []) e.groups e := by
    rw [List.append_nil]
    exact hx.state_of_ok h hrun
  cases d with
  | header b =>
    exact hkeeps (applyHeader_keeps_of (fun _ _ _ hc => hc.congr rfl) b)
  | template b =>
    exact hkeeps (defineMacro_keeps_of (fun _ _ _ hc => hc.congr rfl) b).discard
  | measure b =>
    exact hkeeps (playMeasure_keeps_of_entries (fun _ _ hc => hc.congr rfl) playEntry_tabled b)
  | group b => exact (defineGroup_tabled h hrun).1
  | instrument b => exact (defineInstrument_tabled h hrun).1

/-- All declarations but measure blocks leave the cursors alone. -/
lemma declare_cursors {d : Declaration P} (h : Tabled l defs c.groups c) (hd : ∀ b, d ≠ .measure b)
    (hrun : eval (declare d) c = .ok ((), e)) : e.cursors = c.cursors := by
  have hkeeps (hx : Keeps (fun d : Context P => d.cursors = c.cursors) (fun _ => True) (declare d)
      fun _ => True) : e.cursors = c.cursors :=
    hx.state_of_ok rfl hrun
  cases d with
  | header b => exact hkeeps (applyHeader_keeps_of (fun _ _ _ hc => hc) b)
  | template b => exact hkeeps (defineMacro_keeps_of (fun _ _ _ hc => hc) b).discard
  | measure b => exact absurd rfl (hd b)
  | group b => exact (defineGroup_tabled h hrun).2
  | instrument b => exact (defineInstrument_tabled h hrun).2

lemma declareAll_tabled {ds : List (Declaration P)} (h : Tabled l defs c.groups c)
    (hrun : eval (declareAll ds) c = .ok ((), e)) :
    Tabled l (defs ++ ds.flatMap Declaration.definitions) e.groups e := by
  induction ds generalizing defs c with
  | nil =>
    obtain rfl : c = e := by simpa [declareAll] using hrun
    simpa using h
  | cons d ds ih =>
    rw [declareAll, eval_forM_cons] at hrun
    obtain ⟨⟨⟨⟩, c₁⟩, hhead, hrest⟩ := bind_eq_ok.mp hrun
    rw [List.flatMap_cons, ← List.append_assoc]
    exact ih (declare_tabled h hhead) hrest

lemma start_tabled (o : Options) (l : Library) :
    Tabled l [] [] (.start o l : Context P) where
  library := .refl l
  instruments := ⟨List.nodup_nil, rfl, by simp [Context.start]⟩
  groups := rfl
  voiced := by simp [Context.Voiced, Context.start]

end Run

/-- **The tables of every state that declarations lead to.** The instruments are those that were
defined, and each group that is closed has the members that say so. Every cursor is of a defined
instrument, so that a new one has none to lose. All this holds also between the members of a group
that is not closed yet, if it is counted with the others. -/
theorem declareAll_tables {o : Options} {l : Library} {ds : List (Declaration P)} {c : Context P}
    (h : (declareAll ds).run (.start o l) = .ok () c) :
    OfDefinitions l (ds.flatMap Declaration.definitions) c.instruments ∧
      Grouped c.groups c.instruments ∧ c.Voiced ∧
      (∀ group b r e, (defineInstrument group b).run c = .ok r e → e.cursors = c.cursors) ∧
      ∀ label blocks members e, (defineMembers label blocks []).run c = .ok members e →
        OfDefinitions l (ds.flatMap Declaration.definitions ++
            blocks.flatMap fun p => p.1.definitions (some label)) e.instruments ∧
          Grouped (c.groups ++ [⟨label, [], members⟩]) e.instruments ∧ e.Voiced ∧
          e.cursors = c.cursors := by
  have htabled := declareAll_tabled (start_tabled o l) (eval_eq_ok.mpr h)
  rw [List.nil_append] at htabled
  refine ⟨htabled.instruments, .of_memberships htabled.instruments.distinct htabled.groups,
    htabled.voiced, fun group b r e hrun => ?_, fun label blocks members e hrun => ?_⟩
  · cases defineInstrument_cases htabled.library (eval_eq_ok.mpr hrun) with
    | incomplete _ he => cases he; rfl
    | repeated _ _ he => cases he; rfl
    | fresh _ hnew _ he =>
      cases he
      exact htabled.filter_cursors hnew
  · have hopen : Tabled l (ds.flatMap Declaration.definitions) (c.groups ++ [⟨label, [], []⟩]) c :=
      { htabled with groups := by simpa [memberships] using htabled.groups }
    obtain ⟨htabled', hcursors, -⟩ := defineMembers_tabled hopen (eval_eq_ok.mpr hrun)
    exact ⟨htabled'.instruments, .of_memberships htabled'.instruments.distinct htabled'.groups,
      htabled'.voiced, hcursors⟩

/-- Two names that are defined again, one of them in a group that the text does not close. -/
theorem declareAll_tables_band :
    let band := readDocument (tokenize
      "def a measure 1 \x7b a: c \x7d def d group G \x7b def b style=tab def a style=grid def b")
    ∃ c, (declareAll band).run (.start {} .shipped) = .ok () c ∧
      c.instruments.map (fun i => (i.id, i.group, i.style)) =
        [("a", none, .standard), ("d", none, .standard), ("b", some "G", .tab)] ∧
      c.groups.map (fun g => (g.label, g.members)) = [("G", ["b"])] ∧
      c.cursors.map (·.1) = [⟨"a", "v1"⟩] ∧
      OfDefinitions .shipped (band.flatMap Declaration.definitions) c.instruments ∧
      Grouped c.groups c.instruments ∧ c.Voiced := by
  intro band
  have htables : passes (declareAll band) (.start {} .shipped) (fun _ c =>
      c.instruments.map (fun i => (i.id, i.group, i.style)) ==
          [("a", none, .standard), ("d", none, .standard), ("b", some "G", .tab)] &&
        (c.groups.map (fun g => (g.label, g.members)) == [("G", ["b"])] &&
          c.cursors.map (·.1) == [⟨"a", "v1"⟩])) = true := by decide +kernel
  obtain ⟨_, c, hrun, hchecks⟩ := exists_of_passes htables
  simp only [Bool.and_eq_true, beq_iff_eq] at hchecks
  obtain ⟨hinstruments, hgroups, hcursors⟩ := hchecks
  obtain ⟨hdefs, hgrouped, hvoiced, -⟩ := declareAll_tables hrun
  exact ⟨c, hrun, hinstruments, hgroups, hcursors, hdefs, hgrouped, hvoiced⟩

end Partitura
