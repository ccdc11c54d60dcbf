import Partitura.Proofs.History
import Partitura.Proofs.Lexing

/-!
What is listed, and what opens under a listed name.

A file is listed under its stem. A document that is not at hand is looked for in the file that is
named like it, but with a line for every blank and stroke. The two go back and forth on plain
names only: a name with a blank in it leads to another file than the one that was listed, and so
does a file whose name is nothing but the suffix.
-/

namespace Partitura

open Text

/-! ### Stems -/

/-- The stem of a source file is what stands before the suffix, if anything does. -/
lemma stemOf_source {file : String} {stem : List Char}
    (h : file.toList = stem ++ Documents.suffix.toList) :
    Path.stemOf file = if stem = [] then file else .ofList stem := by
  have hreverse : file.toList.reverse = "inmo".toList ++ '.' :: stem.reverse := by
    rw [h, List.reverse_append]
    rfl
  unfold Path.stemOf
  rw [hreverse, cutAt_append_of_not_mem (by decide)]
  cases stem <;> simp

namespace Documents

/-- A file name that can be found again from its stem. -/
def Plain (file : String) : Prop := (∀ c ∈ file.toList, c ≠ ' ' ∧ c ≠ '/') ∧ file ≠ suffix

def fileName (name : String) : String :=
  .ofList (name.toList.map fun c => if c = ' ' ∨ c = '/' then '_' else c) ++ suffix

lemma map_line_eq_self_iff {cs : List Char} :
    (cs.map fun c => if c = ' ' ∨ c = '/' then '_' else c) = cs ↔
      ∀ c ∈ cs, c ≠ ' ' ∧ c ≠ '/' := by
  induction cs with
  | nil => simp
  | cons c cs ih =>
    rw [List.map_cons, List.cons.injEq, ih, List.forall_mem_cons]
    refine and_congr_left fun _ => ?_
    by_cases hc : c = ' ' ∨ c = '/'
    · rcases hc with rfl | rfl <;> simp
    · rw [if_neg hc]
      simpa [not_or] using hc

/-- **A stem leads back to its file exactly if the file has a plain name.** -/
lemma fileName_stemOf_eq_iff {file : String} (h : suffix.toList <:+ file.toList) :
    fileName (Path.stemOf file) = file ↔ Plain file := by
  obtain ⟨stem, hstem⟩ := h
  have hfile := hstem.symm
  rw [stemOf_source hfile, ← String.toList_inj, fileName, String.toList_append,
    String.toList_ofList]
  unfold Plain
  split
  · rename_i hempty
    subst hempty
    obtain rfl : file = suffix := String.toList_inj.mp hfile
    simp [suffix]
  · rename_i hne
    have hsuffix : file ≠ suffix := by
      rintro rfl
      exact hne (List.append_left_eq_self.mp hstem)
    rw [String.toList_ofList, hfile, List.append_left_inj, map_line_eq_self_iff]
    simp only [hsuffix, ne_eq, not_false_eq_true, and_true, List.forall_mem_append, iff_self_and]
    intro _
    simp [suffix]

/-! ### Listings -/

lemma mem_of_mem_eraseDupsBy {α : Type} {r : α → α → Bool} {xs : List α} {x : α}
    (h : x ∈ xs.eraseDupsBy r) : x ∈ xs := by
  induction hn : xs.length using Nat.strongRecOn generalizing xs with
  | ind n ih =>
    cases xs with
    | nil => exact h
    | cons y ys =>
      rw [List.eraseDupsBy_cons] at h
      rcases List.mem_cons.mp h with rfl | h
      · exact List.mem_cons_self
      · have hlength := List.length_filter_le (fun z => decide (r z y = false)) ys
        have hmem := ih _ (by simp only [List.length_cons] at hn; omega) h rfl
        exact List.mem_cons_of_mem y (List.mem_filter.mp hmem).1

/-- The names in a folder have the suffix that is asked for. -/
lemma endsWith_of_mem_names {fs : Files} {folder : Path} {s : String} {names : List String}
    (h : fs.names folder s = .ok names) {name : String} (hname : name ∈ names) :
    s.toList <:+ name.toList := by
  unfold Files.names at h
  split at h
  · obtain rfl := Except.ok.inj h
    rw [List.mem_mergeSort, List.mem_filter] at hname
    rw [← String.copy_toSlice (s := name), ← String.Slice.endsWith_string_iff,
      String.endsWith_toSlice]
    exact hname.2
  · cases h
  · cases h
    cases hname

lemma isSome_get? {α : Type} {key : String} {v : α} {l : List (String × α)} (h : (key, v) ∈ l) :
    (Partitura.get? key l).isSome := by
  induction l with
  | nil => cases h
  | cons p rest ih =>
    rw [Partitura.get?]
    split
    · rfl
    · rename_i hne
      refine ih ((List.mem_cons.mp h).resolve_left ?_)
      rintro rfl
      exact hne rfl

/-- **What is listed** is at hand, or a source file under its stem. -/
lemma mem_list {ds : Documents} {ls : List Listing} (h : ds.list = .ok ls) {l : Listing}
    (hl : l ∈ ls) :
    (l.loaded = true ∧ (Partitura.get? l.name ds.held).isSome) ∨
      l.loaded = false ∧ Partitura.get? l.name ds.held = none ∧
        ∃ file, suffix.toList <:+ file.toList ∧ l.name = Path.stemOf file ∧
          l.path = some (ds.folder.entry file) := by
  obtain ⟨names, hnames, h⟩ := bind_eq_ok.mp h
  obtain rfl := Except.ok.inj h
  rw [List.mem_mergeSort, List.mem_append] at hl
  rcases hl with hl | hl
  · obtain ⟨⟨name, d⟩, hmem, rfl⟩ := List.mem_map.mp hl
    exact .inl ⟨rfl, isSome_get? hmem⟩
  · have hl' := List.mem_filter.mp (mem_of_mem_eraseDupsBy hl)
    obtain ⟨file, hfile, rfl⟩ := List.mem_map.mp hl'.1
    exact .inr ⟨rfl, by simpa using hl'.2, file, endsWith_of_mem_names hnames hfile, rfl, rfl⟩

/-! ### Opening what is listed -/

lemma settle_path_source (d : Document) (outcome : Except Failure Compiled) :
    (d.settle outcome).path = d.path ∧ (d.settle outcome).source = d.source := by
  rcases outcome with (f | ns) | c <;> exact ⟨rfl, rfl⟩

lemma update_path_source (ds : Documents) (name source : String) (path : Path) :
    (ds.update name source (some path)).1.path = some path ∧
      (ds.update name source (some path)).1.source = source :=
  settle_path_source _ _

lemma load_of_text? {ds : Documents} {path : Path} {s : String} (h : ds.text? path = some s)
    (name : Option String) :
    ds.load path name = .ok (ds.update (nameFor path name) s (some path)) := by
  unfold text? at h
  rw [load_eq]
  cases hread : ds.files.read path >>= decodeUtf8 with
  | error f => simp [hread] at h
  | ok cs =>
    obtain rfl : String.ofList (unixLines cs) = s := by simpa [hread] using h
    rfl

lemma text?_of_load {ds : Documents} {path : Path} {name : Option String}
    {r : Document × Documents} (h : ds.load path name = .ok r) : ∃ s, ds.text? path = some s := by
  rw [load_eq] at h
  obtain ⟨cs, hread, -⟩ := bind_eq_ok.mp h
  exact ⟨_, by rw [text?, hread]⟩

/-- What is not at hand is opened from its file, if that can be read. -/
lemma get?_eq_some_iff {ds : Documents} {name : String} (hheld : Partitura.get? name ds.held = none)
    {d : Document} :
    (∃ ds', ds.get? name = .ok (some d, ds')) ↔
      ∃ s, ds.text? (ds.fileOf name) = some s ∧
        d = (ds.update (nameFor (ds.fileOf name) name) s (some (ds.fileOf name))).1 := by
  rw [get?_of_not_held hheld]
  constructor
  · rintro ⟨ds', h⟩
    obtain ⟨there, -, h⟩ := bind_eq_ok.mp h
    cases there with
    | false => cases h
    | true =>
      rcases hload : ds.load (ds.fileOf name) name with f | r
      · simp [hload] at h
      · obtain ⟨s, hs⟩ := text?_of_load hload
        rw [load_of_text? hs] at hload
        obtain rfl := Except.ok.inj hload
        rw [load_of_text? hs] at h
        exact ⟨s, hs, (Option.some.inj (Prod.mk.inj (Except.ok.inj h)).1).symm⟩
  · rintro ⟨s, hs, rfl⟩
    exact ⟨_, by rw [isThere_of_text? hs, load_of_text? hs]; rfl⟩

/-- **What opens under a listed name.** A document at hand is found as it is. A source file that
can be read is opened from the path that is listed exactly if it has a plain name. -/
theorem get?_of_mem_list {ds : Documents} {ls : List Listing} (h : ds.list = .ok ls) {l : Listing}
    (hl : l ∈ ls) :
    (l.loaded = true ∧ ∃ d, ds.get? l.name = .ok (some d, ds)) ∨
      l.loaded = false ∧ ∃ file, l.name = Path.stemOf file ∧ l.path = some (ds.folder.entry file) ∧
        ∀ s, ds.text? (ds.folder.entry file) = some s →
          ((∃ d ds', ds.get? l.name = .ok (some d, ds') ∧ d.path = l.path ∧ d.source = s) ↔
            Plain file) := by
  rcases mem_list h hl with ⟨hloaded, hheld⟩ | ⟨hloaded, hheld, file, hsuffix, hname, hpath⟩
  · obtain ⟨d, hd⟩ := Option.isSome_iff_exists.mp hheld
    exact .inl ⟨hloaded, d, get?_of_held hd⟩
  · refine .inr ⟨hloaded, file, hname, hpath, fun s hs => ?_⟩
    have hfile : ds.fileOf l.name = ds.folder.entry (fileName l.name) := rfl
    rw [← fileName_stemOf_eq_iff hsuffix, ← hname]
    constructor
    · rintro ⟨d, ds', hget, hd, -⟩
      -- whatever was opened has the path it was looked for at
      obtain ⟨s', -, rfl⟩ := (get?_eq_some_iff hheld).mp ⟨ds', hget⟩
      rw [(update_path_source ..).1, hpath, hfile] at hd
      simpa [Path.entry] using hd
    · intro hback
      rw [hback] at hfile
      obtain ⟨ds', hget⟩ := (get?_eq_some_iff hheld).mpr ⟨s, by rw [hfile]; exact hs, rfl⟩
      obtain ⟨hd, hsource⟩ := update_path_source ds (nameFor (ds.fileOf l.name) l.name) s
        (ds.fileOf l.name)
      exact ⟨_, ds', hget, by rw [hd, hfile, hpath], hsource⟩

def oneFile (file : String) : Documents where
  files := ⟨⟨"/", ["t"]⟩, [(["scores", file], "def p".toList.map fun c => .ofNat c.toNat)]⟩
  folder := ⟨"/", ["t", "scores"]⟩
  library := .shipped

/-- Below the root a path is gone through name by name. -/
lemma find_oneFile (file : String) (names : List String)
    (hname : Char.ofNat 0 ∉ (Path.mk "/" ("t" :: names)).text.toList)
    (hlong : (Path.mk "/" ("t" :: names)).text.utf8ByteSize ≤ Files.pathLimit) :
    (oneFile file).files.find ⟨"/", "t" :: names⟩ = (oneFile file).files.walk [] names := by
  unfold Files.find
  rw [String.contains_char_eq, if_neg (by simpa using hname), if_neg (by omega), if_pos ⟨rfl, rfl⟩]
  rfl

lemma list_oneFile {file stem : String} (hends : file.endsWith suffix = true)
    (hstem : Path.stemOf file = stem) :
    (oneFile file).list = .ok [⟨stem, some ⟨"/", ["t", "scores", file]⟩, false⟩] := by
  have hfolder : (oneFile file).folder = ⟨"/", ["t", "scores"]⟩ := rfl
  have hheld : (oneFile file).held = [] := rfl
  have hfind : (oneFile file).files.find ⟨"/", ["t", "scores"]⟩ = .folder (some ["scores"]) := by
    rw [find_oneFile file ["scores"] (by decide +kernel) (by decide +kernel)]
    rfl
  have hnames : (oneFile file).files.names ⟨"/", ["t", "scores"]⟩ suffix = .ok [file] := by
    rw [Files.names, hfind]
    simp [oneFile, List.eraseDups_cons, hends]
  rw [list, hfolder, hnames, hheld]
  simp [List.eraseDupsBy_cons, hstem, Path.entry, Partitura.get?, pure, Except.pure]

theorem get?_of_mem_list_etude :
    (oneFile "etude.omni").list =
        .ok [⟨"etude", some ⟨"/", ["t", "scores", "etude.omni"]⟩, false⟩] ∧
      ∃ d ds', (oneFile "etude.omni").get? "etude" = .ok (some d, ds') ∧
        d.path = some ⟨"/", ["t", "scores", "etude.omni"]⟩ ∧ d.source = "def p" := by
  have hlist : (oneFile "etude.omni").list =
      .ok [⟨"etude", some ⟨"/", ["t", "scores", "etude.omni"]⟩, false⟩] :=
    list_oneFile (by decide +kernel) (by decide +kernel)
  have htext : (oneFile "etude.omni").text? ⟨"/", ["t", "scores", "etude.omni"]⟩ =
      some "def p" := by
    rw [text?, Files.read, find_oneFile _ ["scores", "etude.omni"] (by decide +kernel)
      (by decide +kernel)]
    decide +kernel
  refine ⟨hlist, ?_⟩
  rcases get?_of_mem_list hlist (List.mem_singleton_self _) with
    ⟨hloaded, -⟩ | ⟨-, file, -, hpath, hopen⟩
  · cases hloaded
  · obtain rfl : "etude.omni" = file := by simpa [Path.entry, oneFile] using hpath
    exact (hopen "def p" htext).mpr (by simp [Plain, suffix])

/-- A file whose name has a blank in it is listed, but does not open under that name. -/
theorem not_get?_blank :
    (oneFile "my song.omni").list =
        .ok [⟨"my song", some ⟨"/", ["t", "scores", "my song.omni"]⟩, false⟩] ∧
      (oneFile "my song.omni").text? ⟨"/", ["t", "scores", "my song.omni"]⟩ = some "def p" ∧
      (oneFile "my song.omni").get? "my song" = .ok (none, oneFile "my song.omni") := by
  refine ⟨list_oneFile (by decide +kernel) (by decide +kernel), ?_, ?_⟩
  · rw [text?, Files.read, find_oneFile _ ["scores", "my song.omni"] (by decide +kernel)
      (by decide +kernel)]
    decide +kernel
  · have hfile : (oneFile "my song.omni").fileOf "my song" =
        ⟨"/", ["t", "scores", "my_song.omni"]⟩ := by decide +kernel
    have hthere : (oneFile "my song.omni").files.isThere
        ((oneFile "my song.omni").fileOf "my song") = .ok false := by
      rw [hfile, Files.isThere, find_oneFile _ ["scores", "my_song.omni"] (by decide +kernel)
        (by decide +kernel)]
      rfl
    rw [get?_of_not_held rfl, hthere]
    rfl

end Documents

end Partitura
