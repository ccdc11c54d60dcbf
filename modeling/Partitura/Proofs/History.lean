import Mathlib.Data.List.Induction
import Partitura.Documents
import Partitura.Proofs.Run

/-!
A document is what the updates of its name have made of it.

The three ends of a compilation (a score, warnings that are refused, a fault) each write other
fields of a document. So every field remembers another update: the source and the error the last
one, the score the last one that gave a score, the path the last one that brought a path. Updates
of other names leave no trace, and whatever else is asked of documents is an update or nothing.
-/

namespace Partitura

open Text

/-! ### Updates -/

structure Update where
  name : String
  source : String
  path : Option Path
  outcome : Except Failure Compiled

namespace Update

def score? (u : Update) : Option Score :=
  match u.outcome with
  | .ok c => some c.score
  | .error _ => none

def error? (u : Update) : Option String :=
  match u.outcome with
  | .ok _ => none
  | .error f => some f.message

/-- What the compilation had to say about the source. A fault says nothing about it. -/
def notices? (u : Update) : Option Notices :=
  match u.outcome with
  | .ok c => some c.notices
  | .error (.strict ns) => some ns
  | .error (.internal _) => none

end Update

/-- What the last update that has such a thing has. -/
def latest {α : Type} (f : Update → Option α) (us : List Update) : Option α :=
  us.reverse.findSome? f

/-- The document that some updates, the oldest first, leave behind. -/
structure Document.Reflects (us : List Update) (d : Document) : Prop where
  source : us.getLast?.map Update.source = some d.source
  score : d.score = latest Update.score? us
  error : d.error = us.getLast?.bind Update.error?
  path : d.path = latest Update.path us
  notices : d.notices = (latest Update.notices? us).getD []

/-- What is held under a name after the updates of this name: nothing if there were none. -/
inductive Mirrors (name : String) : List Update → Option Document → Prop
  | nothing : Mirrors name [] none
  | document {us : List Update} {d : Document} (hname : d.name = name) (hd : d.Reflects us) :
      Mirrors name us (some d)

/-- All fields are told. -/
lemma Mirrors.unique {name : String} {us : List Update} {x y : Option Document}
    (hx : Mirrors name us x) (hy : Mirrors name us y) : x = y := by
  cases hx with
  | nothing =>
    cases hy with
    | nothing => rfl
    | document _ hd => cases hd.source
  | @document _ d hname hd =>
    cases hy with
    | nothing => cases hd.source
    | @document _ d' hname' hd' =>
      have hsource : d.source = d'.source := Option.some.inj (hd.source.symm.trans hd'.source)
      have hscore : d.score = d'.score := hd.score.trans hd'.score.symm
      have hnotices : d.notices = d'.notices := hd.notices.trans hd'.notices.symm
      have herror : d.error = d'.error := hd.error.trans hd'.error.symm
      have hpath : d.path = d'.path := hd.path.trans hd'.path.symm
      obtain ⟨_, _, _, _, _, _⟩ := d
      obtain ⟨_, _, _, _, _, _⟩ := d'
      simp_all

/-! ### Records of updates -/

lemma latest_concat {α : Type} (f : Update → Option α) (us : List Update) (u : Update) :
    latest f (us ++ [u]) = (f u <|> latest f us) := by
  rw [latest, List.reverse_concat, List.findSome?_cons]
  cases f u <;> rfl

/-- One more update of a document. -/
lemma Document.Reflects.settle {us : List Update} {u : Update} {d : Document}
    (hscore : d.score = latest Update.score? us) (hpath : d.path = latest Update.path us)
    (hnotices : d.notices = (latest Update.notices? us).getD []) :
    ((d.replace u.source u.path).settle u.outcome).Reflects (us ++ [u]) := by
  obtain ⟨name, source, path, outcome⟩ := u
  have hpath' : (path <|> d.path) = latest Update.path (us ++ [⟨name, source, path, outcome⟩]) := by
    rw [latest_concat, hpath]
  rcases outcome with (f | ns) | c
  · exact ⟨by simp [Document.settle, Document.replace],
      by simp [Document.settle, Document.replace, latest_concat, Update.score?, hscore],
      by simp [Document.settle, Update.error?], hpath',
      by simp [Document.settle, Document.replace, latest_concat, Update.notices?, hnotices]⟩
  · exact ⟨by simp [Document.settle, Document.replace],
      by simp [Document.settle, Document.replace, latest_concat, Update.score?, hscore],
      by simp [Document.settle, Update.error?], hpath',
      by simp [Document.settle, latest_concat, Update.notices?]⟩
  · exact ⟨by simp [Document.settle, Document.replace],
      by simp [Document.settle, latest_concat, Update.score?],
      by simp [Document.settle, Update.error?], hpath',
      by simp [Document.settle, latest_concat, Update.notices?]⟩

lemma Document.name_settle (d : Document) (source : String) (path : Option Path)
    (outcome : Except Failure Compiled) :
    ((d.replace source path).settle outcome).name = d.name := by
  rcases outcome with f | c
  · cases f <;> rfl
  · rfl

lemma get?_put {α : Type} (key name : String) (v : α) (l : List (String × α)) :
    get? name (put key v l) = if name = key then some v else get? name l := by
  induction l with
  | nil => simp [put, get?, eq_comm]
  | cons p rest ih =>
    obtain ⟨k, old⟩ := p
    by_cases hk : k = key
    · subst hk
      simp only [put, if_true, get?, eq_comm]
      split <;> rfl
    · simp only [put, hk, if_false, get?, ih]
      by_cases h : k = name
      · subst h
        simp [hk]
      · simp [h]

namespace Documents

def recordAll (us : List Update) (held : List (String × Document)) : List (String × Document) :=
  us.foldl (fun held u => (record u.name u.source u.path u.outcome held).2) held

/-- **A name holds what the updates of this name have made of it**, however they came out and
whatever was done to other names between them. -/
lemma mirrors_recordAll (us : List Update) (name : String) :
    Mirrors name (us.filter (·.name = name)) (Partitura.get? name (recordAll us [])) := by
  induction us using List.reverseRecOn with
  | nil => exact .nothing
  | append_singleton us u ih =>
    rw [recordAll, List.foldl_append, List.foldl_cons, List.foldl_nil, ← recordAll, record,
      List.filter_append]
    dsimp only
    rw [get?_put]
    by_cases hname : name = u.name
    · subst hname
      rw [if_pos rfl, List.filter_cons_of_pos (by simp), List.filter_nil]
      generalize Partitura.get? u.name (recordAll us []) = old at ih
      generalize us.filter (·.name = u.name) = earlier at ih
      cases ih with
      | nothing => exact .document (Document.name_settle _ _ _ _) (.settle rfl rfl rfl)
      | document hd hold =>
        exact .document ((Document.name_settle _ _ _ _).trans hd)
          (.settle hold.score hold.path hold.notices)
    · have hne : ¬ u.name = name := fun h => hname h.symm
      rw [if_neg hname, List.filter_cons_of_neg (by simpa using hne), List.filter_nil,
        List.append_nil]
      exact ih

end Documents

/-! ### What is asked of documents -/

inductive Action
  | update (name source : String) (path : Option Path)
  | get (name : String)
  | require (name : String)
  | load (path : Path) (name : Option String)
  /-- Another program writes a file. -/
  | write (names : List String) (bytes : List UInt8)

namespace Documents

/-- The documents that a request leaves; one that fails leaves them alone. -/
def leftBy {α : Type} (ds : Documents) : Except Fault (α × Documents) → Documents
  | .ok (_, ds') => ds'
  | .error _ => ds

def after (ds : Documents) : Action → Documents
  | .update name source path => (ds.update name source path).2
  | .get name => ds.leftBy (ds.get? name)
  | .require name => ds.leftBy (ds.require name)
  | .load path name => ds.leftBy (ds.load path name)
  | .write names bytes => ds.write names bytes

def text? (ds : Documents) (path : Path) : Option String :=
  match ds.files.read path >>= decodeUtf8 with
  | .ok cs => some (.ofList (unixLines cs))
  | .error _ => none

/-- The name a file is loaded under: the one that is given, or else the stem of the file. -/
def nameFor (path : Path) : Option String → String
  | none | some "" => path.stem
  | some name => name

/-- The update that loading a file is; none if the file cannot be read. -/
def updateFrom (ds : Documents) (path : Path) (name : Option String) : Option Update :=
  (ds.text? path).map fun source =>
    ⟨nameFor path name, source, some path, (compile ds.options ds.library source).1⟩

/-- The update that an action is, if it is one. What is at hand is not loaded again. -/
def update? (ds : Documents) : Action → Option Update
  | .update name source path => some ⟨name, source, path, (compile ds.options ds.library source).1⟩
  | .get name | .require name =>
    if (Partitura.get? name ds.held).isSome then none else ds.updateFrom (ds.fileOf name) name
  | .load path name => ds.updateFrom path name
  | .write _ _ => none

lemma load_eq (ds : Documents) (path : Path) (name : Option String) :
    ds.load path name = (ds.files.read path >>= decodeUtf8) >>= fun cs =>
      .ok (ds.update (nameFor path name) (.ofList (unixLines cs)) (some path)) := by
  unfold load
  rcases ds.files.read path with f | bytes
  · rfl
  · rcases hcs : decodeUtf8 bytes with f | cs
    · simp [hcs]
    · simp only [ok_bind, hcs]
      unfold nameFor
      rfl

lemma get?_of_held {ds : Documents} {name : String} {d : Document}
    (h : Partitura.get? name ds.held = some d) : ds.get? name = .ok (some d, ds) := by
  simp only [get?, h]
  rfl

/-- What is not at hand is loaded from its file, if there is one. -/
lemma get?_of_not_held {ds : Documents} {name : String}
    (h : Partitura.get? name ds.held = none) :
    ds.get? name = ds.files.isThere (ds.fileOf name) >>= fun there =>
      if there then (fun p => (some p.1, p.2)) <$> ds.load (ds.fileOf name) name
      else .ok (none, ds) := by
  simp only [get?, h]
  rcases ds.files.isThere (ds.fileOf name) with f | there
  · rfl
  · cases there with
    | false => rfl
    | true => cases ds.load (ds.fileOf name) name <;> rfl

/-- A file that can be read is there. -/
lemma isThere_of_text? {ds : Documents} {path : Path} {s : String} (h : ds.text? path = some s) :
    ds.files.isThere path = .ok true := by
  unfold text? Files.read at h
  unfold Files.isThere
  cases hfind : ds.files.find path with
  | file bytes => rfl
  | _ => simp [hfind] at h

lemma updateFrom_of_not_there {ds : Documents} {path : Path} (h : ds.files.isThere path ≠ .ok true)
    (name : Option String) : ds.updateFrom path name = none := by
  rw [updateFrom, Option.map_eq_none_iff, Option.eq_none_iff_forall_ne_some]
  exact fun s hs => h (isThere_of_text? hs)

lemma held_leftBy_load (ds : Documents) (path : Path) (name : Option String) :
    (ds.leftBy (ds.load path name)).held = recordAll (ds.updateFrom path name).toList ds.held := by
  rw [load_eq, updateFrom, text?]
  cases ds.files.read path >>= decodeUtf8 <;> rfl

lemma leftBy_map {α β : Type} (ds : Documents) (g : α → β) (x : Except Fault (α × Documents)) :
    ds.leftBy ((fun p => (g p.1, p.2)) <$> x) = ds.leftBy x := by
  cases x <;> rfl

lemma held_leftBy_get? (ds : Documents) (name : String) :
    (ds.leftBy (ds.get? name)).held = recordAll (ds.update? (.get name)).toList ds.held := by
  cases hheld : Partitura.get? name ds.held with
  | some d => simp [get?_of_held hheld, update?, hheld, leftBy, recordAll]
  | none =>
    have hupdate : ds.update? (.get name) = ds.updateFrom (ds.fileOf name) name := by
      simp [update?, hheld]
    rw [hupdate, get?_of_not_held hheld]
    cases hthere : ds.files.isThere (ds.fileOf name) with
    | ok there =>
      cases there with
      | true => rw [ok_bind, if_pos rfl, leftBy_map ds some, held_leftBy_load]
      | false => rw [updateFrom_of_not_there (by simp [hthere])]; rfl
    | error f => rw [updateFrom_of_not_there (by simp [hthere])]; rfl

/-- Nothing is changed if no document is found. -/
lemma eq_of_get?_none {ds ds' : Documents} {name : String} (h : ds.get? name = .ok (none, ds')) :
    ds' = ds := by
  cases hheld : Partitura.get? name ds.held with
  | some d =>
    rw [get?_of_held hheld] at h
    cases h
  | none =>
    rw [get?_of_not_held hheld] at h
    obtain ⟨there, -, h⟩ := bind_eq_ok.mp h
    cases there with
    | true =>
      cases hload : ds.load (ds.fileOf name) name <;> simp [hload] at h
    | false =>
      cases h
      rfl

lemma leftBy_require (ds : Documents) (name : String) :
    ds.leftBy (ds.require name) = ds.leftBy (ds.get? name) := by
  unfold require
  rcases hget : ds.get? name with f | ⟨_ | d, ds'⟩
  · rfl
  · exact (eq_of_get?_none hget).symm
  · rfl

/-- **Every action is an update or changes no document.** -/
lemma held_after (ds : Documents) (a : Action) :
    (ds.after a).held = recordAll (ds.update? a).toList ds.held := by
  cases a with
  | update name source path => rfl
  | get name => exact held_leftBy_get? ds name
  | require name =>
    rw [after, leftBy_require]
    exact held_leftBy_get? ds name
  | load path name => exact held_leftBy_load ds path name
  | write names bytes => rfl

def afterAll (ds : Documents) (as : List Action) : Documents := as.foldl after ds

/-- The updates that some actions are, one after the other. -/
def updates (ds : Documents) : List Action → List Update
  | [] => []
  | a :: as => (ds.update? a).toList ++ (ds.after a).updates as

lemma held_afterAll (ds : Documents) (as : List Action) :
    (ds.afterAll as).held = recordAll (ds.updates as) ds.held := by
  induction as generalizing ds with
  | nil => rfl
  | cons a as ih =>
    rw [afterAll, List.foldl_cons, ← afterAll, ih, held_after, updates, recordAll, recordAll,
      recordAll, List.foldl_append]

/-- **Each name keeps its last good score.** What is held under a name is told by the updates of
this name alone, whatever they came to, and by all of them. A manager that began without documents
holds what the actions have pushed, those that loaded a file included; a load of a file that cannot
be read fails and changes nothing. -/
theorem held_mirrors_updates (ds : Documents) (as : List Action) (name : String) :
    (∀ us : List Update,
      Mirrors name (us.filter (·.name = name)) (Partitura.get? name (recordAll us []))) ∧
    (∀ us us' : List Update, us.filter (·.name = name) = us'.filter (·.name = name) →
      Partitura.get? name (recordAll us []) = Partitura.get? name (recordAll us' [])) ∧
    ({ ds with held := [] }.afterAll as).held =
      recordAll ({ ds with held := [] }.updates as) [] ∧
    ∀ path given, ds.text? path = none →
      (∃ f, ds.load path given = .error f) ∧ ds.after (.load path given) = ds := by
  refine ⟨fun us => mirrors_recordAll us name, fun us us' h => ?_, held_afterAll _ as, ?_⟩
  · have hus := mirrors_recordAll us name
    rw [h] at hus
    exact hus.unique (mirrors_recordAll us' name)
  · intro path given htext
    unfold text? at htext
    have hload : ∃ f, ds.load path given = .error f := by
      rw [load_eq]
      cases hread : ds.files.read path >>= decodeUtf8 with
      | error f => exact ⟨f, rfl⟩
      | ok cs => simp [hread] at htext
    obtain ⟨f, hf⟩ := hload
    exact ⟨⟨f, hf⟩, by rw [after, hf]; rfl⟩

end Documents

end Partitura
