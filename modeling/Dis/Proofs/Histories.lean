import Dis.Debugger.History
import Dis.Proofs.FileTree
import Dis.Proofs.Lines
/-!
# What a history file keeps

A history is a list of trimmed entries, the last so many of those added; its file holds one entry a
line. An entry may have a line break in it, which is where the file and the list part.

* `added_tidy`, `load_initial`: what a history holds is trimmed, not blank and within the limit.
* `entriesOf_contents`: entries without line breaks are read back as they were written;
  `not_lineBreak_of_mem_entriesOf`: no entry read from a file has one.
* `store_cases`: what storing a line leads to, and the one way it breaks off (`Breaks`);
  `append_eq_ok`, `append_eq_error`: the same for a host that ends there.
* `appendAll_saved`: once a line has been stored, the file holds the entries, after any number of
  lines.
* `reopened_iff_no_inner_break`: a history opened anew has the entries of the old one exactly if
  none of them has a line break inside.
-/
namespace Dis.Debugger.History

/-! ## Entries -/

/-- A text that can be an entry: it is not empty, and no blank stands at its ends. -/
structure IsEntry (e : String) : Prop where
  trimmed : Text.Trimmed e.toList
  nonempty : e.toList ≠ []

section LastOf

variable {α : Type} {n : Nat} {xs : List α}

theorem mem_of_mem_lastOf {x : α} (h : x ∈ lastOf n xs) : x ∈ xs :=
  List.mem_of_mem_drop h

theorem length_lastOf_le : (lastOf n xs).length ≤ n := by
  rw [lastOf, List.length_drop]
  omega

theorem lastOf_eq_self (h : xs.length ≤ n) : lastOf n xs = xs := by
  rw [lastOf, Nat.sub_eq_zero_of_le h, List.drop_zero]

end LastOf

theorem mem_entriesOf {contents e : String} :
    e ∈ entriesOf contents ↔
      ∃ l ∈ Text.lines contents.toList, Text.trim l ≠ [] ∧ e = String.ofList (Text.trim l) := by
  simp only [entriesOf, List.mem_map, List.mem_filter]
  constructor
  · intro h
    obtain ⟨t, ⟨⟨l, hl, rfl⟩, hne⟩, rfl⟩ := h
    exact ⟨l, hl, by simpa using hne, rfl⟩
  · intro h
    obtain ⟨l, hl, hne, rfl⟩ := h
    exact ⟨Text.trim l, ⟨⟨l, hl, rfl⟩, by simpa using hne⟩, rfl⟩

theorem isEntry_of_mem_entriesOf {contents e : String} (h : e ∈ entriesOf contents) :
    IsEntry e := by
  obtain ⟨l, -, hne, rfl⟩ := mem_entriesOf.1 h
  constructor
  · rw [String.toList_ofList]
    exact Text.trim_trimmed l
  · rw [String.toList_ofList]
    exact hne

/-- No entry read from a file has a line break in it. -/
theorem not_lineBreak_of_mem_entriesOf {contents e : String} (h : e ∈ entriesOf contents) :
    ∀ c ∈ e.toList, Text.isLineBreak c = false := by
  obtain ⟨l, hl, -, rfl⟩ := mem_entriesOf.1 h
  intro c hc
  rw [String.toList_ofList] at hc
  exact Text.not_lineBreak_of_mem_lines hl c (Text.mem_of_mem_trim hc)

theorem isEntry_of_accepts {entries : List String} {line : String}
    (h : accepts entries line = true) : IsEntry (Text.trimmed line) := by
  have hne : Text.trimmed line ≠ "" := by
    intro heq
    simp [accepts, heq] at h
  constructor
  · rw [Text.trimmed, String.toList_ofList]
    exact Text.trim_trimmed line.toList
  · intro hnil
    exact hne (String.toList_eq_nil_iff.1 hnil)

@[simp] theorem added_path (h : History) (line : String) : (h.added line).path = h.path := by
  simp only [added]

@[simp] theorem added_limit (h : History) (line : String) : (h.added line).limit = h.limit := by
  simp only [added]

theorem added_of_accepts {h : History} {line : String} (ha : accepts h.entries line = true) :
    h.added line = { h with entries := lastOf h.limit (h.entries ++ [Text.trimmed line]) } := by
  rw [added, addEntry, if_pos ha]

theorem added_of_not_accepts {h : History} {line : String} (ha : accepts h.entries line = false) :
    h.added line = h := by
  rw [added, addEntry, ha, if_neg (by simp)]

/-- What a history holds is made of entries, and within its limit. -/
structure Tidy (h : History) : Prop where
  isEntry : ∀ e ∈ h.entries, IsEntry e
  within : h.entries.length ≤ h.limit

theorem added_tidy {h : History} (htidy : Tidy h) (line : String) : Tidy (h.added line) := by
  cases ha : accepts h.entries line with
  | true =>
    rw [added_of_accepts ha]
    refine ⟨?_, length_lastOf_le⟩
    intro e he
    rcases List.mem_append.1 (mem_of_mem_lastOf he) with hold | hnew
    · exact htidy.isEntry e hold
    · rw [List.mem_singleton.1 hnew]
      exact isEntry_of_accepts ha
  | false =>
    rw [added_of_not_accepts ha]
    exact htidy

theorem foldl_added_tidy {h : History} (htidy : Tidy h) (lines : List String) :
    Tidy (lines.foldl added h) := by
  induction lines generalizing h with
  | nil => exact htidy
  | cons line lines ih =>
    rw [List.foldl_cons]
    exact ih (added_tidy htidy line)

@[simp] theorem foldl_added_limit (h : History) (lines : List String) :
    (lines.foldl added h).limit = h.limit := by
  induction lines generalizing h with
  | nil => rfl
  | cons line lines ih => rw [List.foldl_cons, ih, added_limit]

@[simp] theorem foldl_added_path (h : History) (lines : List String) :
    (lines.foldl added h).path = h.path := by
  induction lines generalizing h with
  | nil => rfl
  | cons line lines ih => rw [List.foldl_cons, ih, added_path]

/-! ## The text of a history file -/

theorem intercalate_append_sep {α : Type} (sep : List α) {texts : List (List α)} (h : texts ≠ []) :
    sep.intercalate texts ++ sep = texts.flatMap (· ++ sep) := by
  induction texts with
  | nil => exact absurd rfl h
  | cons t texts ih =>
    cases texts with
    | nil => simp
    | cons t' texts =>
      calc sep.intercalate (t :: t' :: texts) ++ sep
          = t ++ sep ++ (sep.intercalate (t' :: texts) ++ sep) := by
            simp [List.intercalate_cons_cons]
        _ = t ++ sep ++ (t' :: texts).flatMap (· ++ sep) := by rw [ih (by simp)]
        _ = (t :: t' :: texts).flatMap (· ++ sep) := rfl

theorem toList_contents {entries : List String} (h : entries ≠ []) :
    (contents entries).toList = (entries.map String.toList).flatMap (· ++ ['\n']) := by
  rw [contents, String.toList_append, String.toList_intercalate]
  exact intercalate_append_sep ['\n'] (by simpa using h)

/-- Texts that are entries pass through the reader's trimming and sifting unchanged. -/
theorem entries_of_texts {entries : List String} (h : ∀ e ∈ entries, IsEntry e) :
    (((entries.map String.toList).map Text.trim).filter (!·.isEmpty)).map String.ofList =
      entries := by
  induction entries with
  | nil => rfl
  | cons e entries ih =>
    have he := h e (by simp)
    have hentries := ih fun e' he' => h e' (by simp [he'])
    have hkept : (!e.toList.isEmpty) = true := by simpa using he.nonempty
    rw [List.map_cons, List.map_cons, Text.trim_eq_self he.trimmed, List.filter_cons, if_pos hkept,
      List.map_cons, String.ofList_toList, hentries]

/-- Entries without line breaks are read back as they were written. -/
theorem entriesOf_contents {entries : List String} (hentry : ∀ e ∈ entries, IsEntry e)
    (hbreak : ∀ e ∈ entries, ∀ c ∈ e.toList, Text.isLineBreak c = false) :
    entriesOf (String.ofList (Text.unifyNewlines (contents entries).toList)) = entries := by
  by_cases hempty : entries = []
  · subst hempty
    decide
  · have hreturn : '\r' ∉ (contents entries).toList := by
      rw [toList_contents hempty]
      intro hmem
      obtain ⟨t, ht, hc⟩ := List.mem_flatMap.1 hmem
      obtain ⟨e, he, rfl⟩ := List.mem_map.1 ht
      have hin : '\r' ∈ e.toList := by simpa using hc
      have hnot := hbreak e he '\r' hin
      revert hnot
      decide
    have hlines : Text.lines (contents entries).toList = entries.map String.toList := by
      rw [toList_contents hempty]
      apply Text.lines_closed
      intro t ht
      obtain ⟨e, he, rfl⟩ := List.mem_map.1 ht
      exact hbreak e he
    rw [Text.unifyNewlines_eq_self hreturn, String.ofList_toList, entriesOf, hlines]
    exact entries_of_texts hentry

/-! ## Appending -/

/-- Writing the file breaks off exactly on the way to a folder too deep to be made. -/
theorem persist_eq_error_iff {h : History} {files : Files} {e : DocumentError} :
    h.persist files = .error e ↔ e = .tooDeep ∧ ∃ path, h.path = some path ∧
      (files.makeFolders Files.nestingLimit path.parent).2 = some .tooDeep := by
  unfold persist
  cases h.path with
  | none => simp
  | some path =>
    cases hmake : files.makeFolders Files.nestingLimit path.parent with
    | mk files₁ stop =>
      cases stop with
      | none =>
        simp only [hmake]
        split <;> simp [hmake]
      | some e₁ =>
        rcases Files.makeFolders_error hmake with ⟨e', rfl⟩ | ⟨rfl, -⟩
        · simp [hmake]
        · simp [hmake, eq_comm]

/-- Storing a line breaks off: the line is kept, and more folders are missing on the way to the file
than can be made at once. -/
def Breaks (h : History) (files : Files) (line : String) : Prop :=
  accepts h.entries line = true ∧ ∃ path, h.path = some path ∧
    (files.makeFolders Files.nestingLimit path.parent).2 = some .tooDeep

/-- The folders of the file lie deeper than can be made. -/
def TooDeep (h : History) : Prop :=
  ∃ path, h.path = some path ∧ Files.nestingLimit < path.parts.length

theorem Breaks.tooDeep {h : History} {files : Files} {line : String}
    (hbreaks : h.Breaks files line) : h.TooDeep := by
  obtain ⟨-, path, hpath, hdeep⟩ := hbreaks
  cases hmake : files.makeFolders Files.nestingLimit path.parent with
  | mk files₁ stop =>
    rw [hmake] at hdeep
    cases hdeep
    rcases Files.makeFolders_error hmake with ⟨e, he⟩ | ⟨-, hdepth⟩
    · cases he
    · rw [Path.parent, List.length_dropLast] at hdepth
      have hlimit : 0 < Files.nestingLimit := by decide
      exact ⟨path, hpath, by omega⟩

/-- The line is added in any case. -/
theorem store_cases (h : History) (files : Files) (line : String) :
    (¬ h.Breaks files line ∧
      ∃ files' events, h.store files line = (h.added line, .ok (files', events))) ∨
    (h.Breaks files line ∧ h.store files line = (h.added line, .error .tooDeep)) := by
  unfold store
  cases ha : accepts h.entries line with
  | false =>
    rw [if_neg (by simp), added_of_not_accepts ha]
    refine .inl ⟨?_, files, #[], rfl⟩
    rintro ⟨hkept, -⟩
    rw [ha] at hkept
    cases hkept
  | true =>
    rw [if_pos rfl]
    cases hpersist : (h.added line).persist files with
    | ok found =>
      refine .inl ⟨?_, found.1, found.2, rfl⟩
      rintro ⟨-, path, hpath, hdeep⟩
      have hbroken := persist_eq_error_iff.2 ⟨rfl, path, (added_path h line).trans hpath, hdeep⟩
      rw [hpersist] at hbroken
      cases hbroken
    | error e =>
      obtain ⟨rfl, path, hpath, hdeep⟩ := persist_eq_error_iff.1 hpersist
      exact .inr ⟨⟨ha, path, (added_path h line).symm.trans hpath, hdeep⟩, rfl⟩

theorem append_eq_ok {h h' : History} {files files' : Files} {line : String}
    {events : Array Event} (hok : h.append files line = .ok (h', files', events)) :
    h' = h.added line ∧
      (accepts h.entries line = true → (h.added line).persist files = .ok (files', events)) ∧
      (accepts h.entries line = false → files' = files ∧ events = #[]) := by
  unfold append store at hok
  cases ha : accepts h.entries line with
  | true =>
    rw [ha, if_pos rfl] at hok
    cases hpersist : (h.added line).persist files with
    | ok found =>
      rw [hpersist] at hok
      cases hok
      exact ⟨rfl, fun _ => rfl, nofun⟩
    | error e =>
      rw [hpersist] at hok
      cases hok
  | false =>
    rw [ha, if_neg (by simp)] at hok
    cases hok
    exact ⟨(added_of_not_accepts ha).symm, nofun, fun _ => ⟨rfl, rfl⟩⟩

theorem append_eq_error {h : History} {files : Files} {line : String} {e : DocumentError}
    (herror : h.append files line = .error e) : e = .tooDeep ∧ h.TooDeep := by
  unfold append at herror
  rcases h.store_cases files line with ⟨-, files', events, hstore⟩ | ⟨hbreaks, hstore⟩
  · rw [hstore] at herror
    cases herror
  · rw [hstore] at herror
    cases herror
    exact ⟨rfl, hbreaks.tooDeep⟩

/-! ## The file and the entries -/

/-- The file of a history holds its entries. -/
structure Saved (h : History) (files : Files) (path : Path) : Prop where
  path_eq : h.path = some path
  text : files.readText path =
    .ok (String.ofList (Text.unifyNewlines (contents h.entries).toList))

theorem persist_saved {h : History} {files files' : Files} {path : Path}
    (hpath : h.path = some path) (hcheck : Files.checkPath path = .ok ())
    (hok : h.persist files = .ok (files', #[])) :
    Files.SamePlace files files' ∧ Saved h files' path := by
  unfold persist at hok
  rw [hpath] at hok
  have hfolders := files.makeFolders_samePlace Files.nestingLimit path.parent
  cases hmake : files.makeFolders Files.nestingLimit path.parent with
  | mk files₁ stop =>
    rw [hmake] at hfolders
    simp only [hmake] at hok
    cases stop with
    | some e => cases e <;> simp at hok
    | none =>
      cases hwrite : files₁.writeText path (contents h.entries) with
      | error e => simp [hwrite] at hok
      | ok files₂ =>
        simp only [hwrite] at hok
        cases hok
        obtain ⟨hsame, hread⟩ := Files.readText_of_writeText hcheck hwrite
        exact ⟨hfolders.trans hsame, hpath, hread⟩

/-- Append lines one after another; the events of all of them. -/
def appendAll (h : History) (files : Files) :
    List String → Except DocumentError (History × Files × Array Event)
  | [] => .ok (h, files, #[])
  | line :: lines => do
    let (h, files, events) ← h.append files line
    let (h, files, more) ← h.appendAll files lines
    return (h, files, events ++ more)

/-- One of the lines at least is stored when they are appended one after another. -/
def Stores (h : History) (lines : List String) : Prop :=
  ∃ before line after, lines = before ++ line :: after ∧
    accepts (before.foldl added h).entries line = true

theorem not_stores_nil (h : History) : ¬ h.Stores [] := by
  rintro ⟨before, line, after, heq, -⟩
  simp at heq

theorem stores_cons {h : History} {line : String} {lines : List String}
    (hstores : h.Stores (line :: lines)) :
    accepts h.entries line = true ∨ (h.added line).Stores lines := by
  obtain ⟨before, stored, after, heq, ha⟩ := hstores
  cases before with
  | nil =>
    cases heq
    exact .inl ha
  | cons first before =>
    cases heq
    rw [List.foldl_cons] at ha
    exact .inr ⟨before, stored, after, rfl, ha⟩

theorem appendAll_cons {h h' : History} {files files' : Files} {line : String} {lines : List String}
    (hok : h.appendAll files (line :: lines) = .ok (h', files', #[])) :
    ∃ h₁ files₁, h.append files line = .ok (h₁, files₁, #[]) ∧
      h₁.appendAll files₁ lines = .ok (h', files', #[]) := by
  rw [appendAll] at hok
  obtain ⟨⟨h₁, files₁, events₁⟩, happend, hok⟩ := bind_eq_ok_iff.1 hok
  obtain ⟨⟨h₂, files₂, events₂⟩, hrest, hok⟩ := bind_eq_ok_iff.1 hok
  injection hok with hok
  obtain ⟨rfl, rfl, hevents⟩ : h₂ = h' ∧ files₂ = files' ∧ events₁ ++ events₂ = #[] := by
    simpa using hok
  obtain ⟨rfl, rfl⟩ := Array.append_eq_empty_iff.1 hevents
  exact ⟨h₁, files₁, happend, hrest⟩

theorem appendAll_eq_ok {h h' : History} {files files' : Files} {lines : List String}
    (hok : h.appendAll files lines = .ok (h', files', #[])) : h' = lines.foldl added h := by
  induction lines generalizing h files with
  | nil => cases hok; rfl
  | cons line lines ih =>
    obtain ⟨h₁, files₁, happend, hrest⟩ := appendAll_cons hok
    obtain ⟨rfl, -, -⟩ := append_eq_ok happend
    rw [List.foldl_cons]
    exact ih hrest

/-- One line appended: it is stored and the file written, or all stays as it is. -/
theorem append_saved {h h' : History} {files files' : Files} {line : String} {path : Path}
    (hpath : h.path = some path) (hcheck : Files.checkPath path = .ok ())
    (hok : h.append files line = .ok (h', files', #[])) :
    Files.SamePlace files files' ∧
      (Saved h files path ∨ accepts h.entries line = true → Saved h' files' path) := by
  obtain ⟨rfl, hstored, hleft⟩ := append_eq_ok hok
  cases ha : accepts h.entries line with
  | true =>
    have hpath' : (h.added line).path = some path := by rw [added_path, hpath]
    obtain ⟨hsame, hsaved⟩ := persist_saved hpath' hcheck (hstored ha)
    exact ⟨hsame, fun _ => hsaved⟩
  | false =>
    obtain ⟨rfl, -⟩ := hleft ha
    rw [added_of_not_accepts ha]
    exact ⟨.refl _, fun hold => hold.resolve_right (by simp)⟩

/-- Appending keeps the file and the entries together, and once a line has been stored they are. -/
theorem appendAll_saved {h h' : History} {files files' : Files} {lines : List String} {path : Path}
    (hpath : h.path = some path) (hcheck : Files.checkPath path = .ok ())
    (hok : h.appendAll files lines = .ok (h', files', #[])) :
    Files.SamePlace files files' ∧
      (Saved h files path ∨ h.Stores lines → Saved h' files' path) := by
  induction lines generalizing h files with
  | nil =>
    cases hok
    exact ⟨.refl _, fun hold => hold.resolve_right (not_stores_nil _)⟩
  | cons line lines ih =>
    obtain ⟨h₁, files₁, happend, hrest⟩ := appendAll_cons hok
    obtain ⟨hsame₁, hsaved₁⟩ := append_saved hpath hcheck happend
    obtain ⟨rfl, -, -⟩ := append_eq_ok happend
    have hpath₁ : (h.added line).path = some path := by rw [added_path, hpath]
    obtain ⟨hsame, hsaved⟩ := ih hpath₁ hrest
    refine ⟨hsame₁.trans hsame, ?_⟩
    rintro (hold | hstores)
    · exact hsaved (.inl (hsaved₁ (.inl hold)))
    · rcases stores_cons hstores with hfirst | hlater
      · exact hsaved (.inl (hsaved₁ (.inr hfirst)))
      · exact hsaved (.inr hlater)

/-! ## Opening -/

/-- What there is at a path before a history is opened on it: nothing, or a text in UTF-8. -/
inductive Initial (files : Files) (path : Path) : Prop
  | absent (h : files.resolve path = .error .missing)
  | text (loc : Location) (cs : List Char)
      (h : files.resolve path = .ok (loc, .document (Utf8.encode cs)))

section Opening

variable {files : Files} {text : String} {setting : Value} {limit : Nat} {path : Path}

theorem openAt_of_load {entries : List String} {events : Array Event} (htext : text ≠ "")
    (hlimit : limitOf setting = .ok limit) (hpath : files.expandHome (.ofText text) = .ok path)
    (hload : load files limit path = .ok (entries, events)) :
    openAt files (some text) setting = .ok (⟨limit, some path, entries⟩, events) := by
  have hgiven : (some text).filter (!·.isEmpty) = some text := by simp [htext]
  rw [openAt, hlimit, mapError_ok, ok_bind, openWith, hgiven]
  simp only
  rw [hpath, ok_bind, hload, ok_bind, mapError_ok]

theorem load_of_readText {contents : String} (h : files.readText path = .ok contents) :
    load files limit path = .ok (lastOf limit (entriesOf contents), #[]) := by
  rw [load, h]

theorem lastOf_entriesOf_tidy (limit : Nat) (path : Option Path) (contents : String) :
    Tidy ⟨limit, path, lastOf limit (entriesOf contents)⟩ where
  isEntry _ he := isEntry_of_mem_entriesOf (mem_of_mem_lastOf he)
  within := length_lastOf_le

/-- A history can be opened where there is nothing or a text, and what it holds is tidy. -/
theorem load_initial (limit : Nat) (hcheck : Files.checkPath path = .ok ())
    (h : Initial files path) :
    ∃ entries, load files limit path = .ok (entries, #[]) ∧ Tidy ⟨limit, some path, entries⟩ := by
  cases h with
  | absent h =>
    have hread : files.readText path = .error (.file ⟨.missing, path.text⟩) := by
      rw [Files.readText, hcheck, ok_bind, h]
    refine ⟨[], ?_, by simp, by simp⟩
    rw [load, hread]
    rfl
  | text loc cs h =>
    have hread := Files.readText_of_resolve hcheck h
    exact ⟨_, load_of_readText hread, lastOf_entriesOf_tidy limit _ _⟩

end Opening

/-- What is read from the file of a tidy history is its entries exactly if no line boundary stands
inside one of them. -/
theorem lastOf_entriesOf_contents_iff {h : History} (htidy : Tidy h) :
    lastOf h.limit (entriesOf (String.ofList (Text.unifyNewlines (contents h.entries).toList))) =
      h.entries ↔ ∀ e ∈ h.entries, ¬ Text.HasInnerBreak e.toList := by
  constructor
  · intro heq e he hinner
    obtain ⟨c, hc, hbreak⟩ := (htidy.isEntry e he).trimmed.hasInnerBreak_iff.1 hinner
    have hread : e ∈ entriesOf (String.ofList (Text.unifyNewlines (contents h.entries).toList)) :=
      mem_of_mem_lastOf (by rw [heq]; exact he)
    have hnot := not_lineBreak_of_mem_entriesOf hread c hc
    rw [hbreak] at hnot
    cases hnot
  · intro hnone
    have hfree : ∀ e ∈ h.entries, ∀ c ∈ e.toList, Text.isLineBreak c = false := by
      intro e he c hc
      by_cases hbreak : Text.isLineBreak c = true
      · exact absurd ((htidy.isEntry e he).trimmed.hasInnerBreak_iff.2 ⟨c, hc, hbreak⟩) (hnone e he)
      · simpa using hbreak
    rw [entriesOf_contents htidy.isEntry hfree]
    exact lastOf_eq_self htidy.within

/-- A history opened where there was nothing or a text, and opened anew after lines were appended
with one of them stored and every write done, has the entries it had before exactly if none of them
has a line boundary inside. -/
theorem reopened_iff_no_inner_break {files : Files} {text : String} {setting : Value} {limit : Nat}
    {path : Path} (htext : text ≠ "") (hlimit : limitOf setting = .ok limit)
    (hpath : files.expandHome (.ofText text) = .ok path) (hcheck : Files.checkPath path = .ok ())
    (hinitial : Initial files path) :
    ∃ h, openAt files (some text) setting = .ok (h, #[]) ∧
      ∀ lines h' files', h.appendAll files lines = .ok (h', files', #[]) → h.Stores lines →
        ∃ h'', openAt files' (some text) setting = .ok (h'', #[]) ∧
          (h''.entries = h'.entries ↔ ∀ e ∈ h'.entries, ¬ Text.HasInnerBreak e.toList) := by
  obtain ⟨entries, hload, htidy⟩ := load_initial limit hcheck hinitial
  refine ⟨_, openAt_of_load htext hlimit hpath hload, ?_⟩
  intro lines h' files' happend hstores
  obtain ⟨hsame, hsaved⟩ := appendAll_saved rfl hcheck happend
  obtain ⟨-, hread⟩ := hsaved (.inr hstores)
  have hpath' : files'.expandHome (.ofText text) = .ok path := by
    rw [hsame.expandHome]
    exact hpath
  refine ⟨_, openAt_of_load htext hlimit hpath' (load_of_readText hread), ?_⟩
  have hread' := lastOf_entriesOf_contents_iff (foldl_added_tidy htidy lines)
  rw [foldl_added_limit, ← appendAll_eq_ok happend] at hread'
  exact hread'

/-- A new history in a folder yet to be made: plain commands are found again, and a command with a
line separator inside is not. -/
theorem reopened_new_history :
    ∃ h, openAt (.fresh ["w"]) (some "~/logs/h") (.int 2) = .ok (h, #[]) ∧
      (∃ h' files' h'',
        h.appendAll (.fresh ["w"]) ["step", " step", "regs "] = .ok (h', files', #[]) ∧
        openAt files' (some "~/logs/h") (.int 2) = .ok (h'', #[]) ∧ h''.entries = h'.entries) ∧
      (∃ h' files' h'',
        h.appendAll (.fresh ["w"]) ["step", "regs\u2028mem"] = .ok (h', files', #[]) ∧
        openAt files' (some "~/logs/h") (.int 2) = .ok (h'', #[]) ∧ h''.entries ≠ h'.entries) := by
  obtain ⟨h, hopen, hreopen⟩ := @reopened_iff_no_inner_break (.fresh ["w"]) "~/logs/h" (.int 2) 2
    ⟨"/", ["w", "logs", "h"]⟩ (by decide) rfl rfl rfl (.absent rfl)
  cases hopen.symm.trans (show _ = .ok (⟨2, some ⟨"/", ["w", "logs", "h"]⟩, []⟩, #[]) from rfl)
  refine ⟨_, hopen, ?_, ?_⟩
  · obtain ⟨h'', hopen'', hsame⟩ :=
      hreopen ["step", " step", "regs "] ⟨2, some ⟨"/", ["w", "logs", "h"]⟩, ["step", "regs"]⟩ _ rfl
        ⟨[], "step", _, rfl, rfl⟩
    refine ⟨_, _, h'', rfl, hopen'', hsame.2 ?_⟩
    have hfree : ∀ e ∈ ["step", "regs"], ∀ c ∈ e.toList, c ∉ Text.lineBoundaries := by
      simp [Text.lineBoundaries]
    rintro e he ⟨before, c, after, heq, -, -, hc⟩
    exact hfree e he c (by simp [heq]) hc
  · obtain ⟨h'', hopen'', hsame⟩ :=
      hreopen ["step", "regs\u2028mem"]
        ⟨2, some ⟨"/", ["w", "logs", "h"]⟩, ["step", "regs\u2028mem"]⟩ _ rfl ⟨[], "step", _, rfl, rfl⟩
    refine ⟨_, _, h'', rfl, hopen'', ?_⟩
    intro heq
    exact hsame.1 heq "regs\u2028mem" (by simp)
      ⟨['r', 'e', 'g', 's'], '\u2028', ['m', 'e', 'm'], rfl, by decide⟩

end Dis.Debugger.History
