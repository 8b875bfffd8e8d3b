import Dis.Proofs.Histories
/-!
# What a history retains

A history is cut to its limit after every line that is added, and a line that repeats the last entry
is left out by looking at a list that is being cut as it grows. `retained` says what that comes to
without looking at the cuts: the entries it begins with and the lines behind them, trimmed, without
the blank ones and the repetitions, cut once at the end.

* `lastOf_lastOf_append`, `getLast?_lastOf`: cutting before something is added changes neither what
  is left by the next cut nor, with a limit of one at least, the last entry.
* `addEntry_lastOf`: so a line added to a list that was cut gives the list without the cut, cut
  once; `foldl_addEntry`: and so do any number of lines.
* `appendAll_returns`: appending goes through unless the folders of the file are too deep.
* `truncated_once`: the entries of every history, from any file on.
-/
namespace Dis.Debugger.History

/-! ## Cutting -/

section Cutting

variable {α : Type} {n : Nat}

theorem lastOf_lastOf_append (n : Nat) (xs ys : List α) :
    lastOf n (lastOf n xs ++ ys) = lastOf n (xs ++ ys) := by
  unfold lastOf
  rw [← List.drop_append_of_le_length (Nat.sub_le _ _), List.drop_drop, List.length_drop,
    List.length_append]
  congr 1
  omega

theorem lastOf_lastOf (n : Nat) (xs : List α) : lastOf n (lastOf n xs) = lastOf n xs := by
  simpa using lastOf_lastOf_append n xs []

theorem getLast?_lastOf (hn : 1 ≤ n) (xs : List α) : (lastOf n xs).getLast? = xs.getLast? := by
  unfold lastOf
  rw [List.getLast?_drop]
  split
  · next hshort =>
    have hempty : xs = [] := List.length_eq_zero_iff.1 (by omega)
    rw [hempty]
    rfl
  · rfl

end Cutting

/-! ## What is kept, without the cuts -/

/-- Lines trimmed, without the blank ones. -/
def sifted (lines : List String) : List String :=
  (lines.map Text.trimmed).filter (· ≠ "")

/-- Texts without those that repeat the one just before them; `last` stands before the first. -/
def withoutRepeats (last : Option String) : List String → List String
  | [] => []
  | e :: es => if last = some e then withoutRepeats last es else e :: withoutRepeats (some e) es

/-- The entries at the beginning with what lines add behind them, cut once at the end. -/
def retained (limit : Nat) (initial lines : List String) : List String :=
  lastOf limit (initial ++ withoutRepeats initial.getLast? (sifted lines))

theorem accepts_iff (entries : List String) (line : String) :
    accepts entries line = true ↔
      Text.trimmed line ≠ "" ∧ entries.getLast? ≠ some (Text.trimmed line) := by
  simp [accepts]

theorem sifted_cons_blank {line : String} (h : Text.trimmed line = "") (lines : List String) :
    sifted (line :: lines) = sifted lines := by
  simp [sifted, h]

theorem sifted_cons {line : String} (h : Text.trimmed line ≠ "") (lines : List String) :
    sifted (line :: lines) = Text.trimmed line :: sifted lines := by
  simp [sifted, h]

/-- The next line can be added before the list is cut as well as after. -/
theorem addEntry_lastOf {limit : Nat} (hlimit : 1 ≤ limit) (entries : List String) (line : String) :
    addEntry limit (lastOf limit entries) line =
      if accepts entries line then lastOf limit (entries ++ [Text.trimmed line])
      else lastOf limit entries := by
  have hsame : accepts (lastOf limit entries) line = accepts entries line := by
    simp only [accepts, getLast?_lastOf hlimit]
  rw [addEntry, hsame, lastOf_lastOf_append]

/-- Cutting after every line is cutting once at the end. -/
theorem foldl_addEntry {limit : Nat} (hlimit : 1 ≤ limit) (initial lines : List String) :
    lines.foldl (addEntry limit) (lastOf limit initial) = retained limit initial lines := by
  -- the list without the cuts is what the induction is about: a stored line moves into `initial`
  induction lines generalizing initial with
  | nil => simp [retained, sifted, withoutRepeats]
  | cons line lines ih =>
    rw [List.foldl_cons, addEntry_lastOf hlimit]
    by_cases hblank : Text.trimmed line = ""
    · have hnot : ¬ accepts initial line = true := fun h => ((accepts_iff _ _).1 h).1 hblank
      rw [if_neg hnot, ih, retained, retained, sifted_cons_blank hblank]
    · by_cases hrepeat : initial.getLast? = some (Text.trimmed line)
      · have hnot : ¬ accepts initial line = true := fun h => ((accepts_iff _ _).1 h).2 hrepeat
        rw [if_neg hnot, ih, retained, retained, sifted_cons hblank, withoutRepeats, if_pos hrepeat]
      · rw [if_pos ((accepts_iff _ _).2 ⟨hblank, hrepeat⟩), ih, retained, retained,
          sifted_cons hblank, withoutRepeats, if_neg hrepeat, List.getLast?_concat,
          List.append_assoc, List.singleton_append]

theorem length_retained_le (limit : Nat) (initial lines : List String) :
    (retained limit initial lines).length ≤ limit :=
  length_lastOf_le

/-! ## Histories -/

theorem foldl_added_entries (h : History) (lines : List String) :
    (lines.foldl added h).entries = lines.foldl (addEntry h.limit) h.entries := by
  induction lines generalizing h with
  | nil => rfl
  | cons line lines ih => rw [List.foldl_cons, List.foldl_cons, ih, added_limit, added]

theorem append_returns (h : History) (files : Files) (line : String) :
    (∃ files' events, h.append files line = .ok (h.added line, files', events)) ∨
      (h.append files line = .error .tooDeep ∧ h.TooDeep) := by
  cases happend : h.append files line with
  | ok found =>
    obtain ⟨h', files', events⟩ := found
    obtain ⟨rfl, -, -⟩ := append_eq_ok happend
    exact .inl ⟨files', events, rfl⟩
  | error e =>
    obtain ⟨rfl, hdeep⟩ := append_eq_error happend
    exact .inr ⟨rfl, hdeep⟩

theorem appendAll_returns (h : History) (files : Files) (lines : List String) :
    (∃ files' events, h.appendAll files lines = .ok (lines.foldl added h, files', events)) ∨
      (h.appendAll files lines = .error .tooDeep ∧ h.TooDeep) := by
  induction lines generalizing h files with
  | nil => exact .inl ⟨files, #[], rfl⟩
  | cons line lines ih =>
    rw [List.foldl_cons, appendAll]
    rcases h.append_returns files line with ⟨files₁, events₁, happend⟩ | ⟨happend, hdeep⟩
    · rw [happend, ok_bind]
      rcases ih (h.added line) files₁ with ⟨files', events, hrest⟩ | ⟨hrest, hdeep⟩
      · dsimp only
        rw [hrest, ok_bind]
        exact .inl ⟨files', events₁ ++ events, rfl⟩
      · dsimp only
        rw [hrest, error_bind]
        refine .inr ⟨rfl, ?_⟩
        unfold TooDeep at hdeep ⊢
        rwa [added_path] at hdeep
    · rw [happend, error_bind]
      exact .inr ⟨rfl, hdeep⟩

/-- The lines a history finds at its path: those of a text, and none where there is no path or
nothing that can be read. -/
inductive Found (files : Files) : Option String → List String → Prop
  | nowhere : Found files none []
  | unnamed : Found files (some "") []
  | unread {text : String} {path : Path} {e : FileError} (htext : text ≠ "")
      (hpath : files.expandHome (.ofText text) = .ok path)
      (hread : files.readText path = .error (.file e)) : Found files (some text) []
  | read {text contents : String} {path : Path} (htext : text ≠ "")
      (hpath : files.expandHome (.ofText text) = .ok path)
      (hread : files.readText path = .ok contents) :
      Found files (some text) ((Text.lines contents.toList).map String.ofList)

theorem entriesOf_eq (contents : String) :
    entriesOf contents = sifted ((Text.lines contents.toList).map String.ofList) := by
  unfold entriesOf
  induction Text.lines contents.toList with
  | nil => rfl
  | cons l ls ih =>
    have htrim : Text.trimmed (String.ofList l) = String.ofList (Text.trim l) := by
      rw [Text.trimmed, String.toList_ofList]
    rw [List.map_cons, List.map_cons]
    by_cases hblank : Text.trim l = []
    · rw [sifted_cons_blank (by rw [htrim, hblank]), ← ih, List.filter_cons, hblank]
      rfl
    · have hne : String.ofList (Text.trim l) ≠ "" := fun h => hblank (by simpa using h)
      rw [sifted_cons (by rw [htrim]; exact hne), ← ih, htrim, List.filter_cons,
        if_pos (by simpa using hblank), List.map_cons]

theorem limitOf_eq {setting : Value} {n : Int}
    (h : (if setting.isGiven then setting.toInt else .ok 1) = .ok n) :
    limitOf setting = .ok (max 1 n).toNat := by
  unfold limitOf
  split at h
  · next hgiven => rw [if_pos hgiven, h]; rfl
  · next hgiven => cases h; rw [if_neg hgiven]; rfl

theorem openAt_found {files : Files} {path : Option String} {found : List String} {setting : Value}
    {limit : Nat} (hlimit : limitOf setting = .ok limit) (hfound : Found files path found) :
    ∃ p events, openAt files path setting =
      .ok (⟨limit, p, lastOf limit (sifted found)⟩, events) := by
  have hnothing : lastOf limit (sifted []) = [] := lastOf_eq_self (Nat.zero_le limit)
  cases hfound with
  | nowhere =>
    rw [hnothing, openAt, hlimit]
    exact ⟨none, #[], rfl⟩
  | unnamed =>
    rw [hnothing, openAt, hlimit]
    exact ⟨none, #[], rfl⟩
  | @unread text path e htext hpath hread =>
    have hload : ∃ events, load files limit path = .ok ([], events) := by
      rw [load, hread]
      dsimp only
      split
      · exact ⟨_, rfl⟩
      · exact ⟨_, rfl⟩
    obtain ⟨events, hload⟩ := hload
    rw [hnothing]
    exact ⟨some path, events, openAt_of_load htext hlimit hpath hload⟩
  | @read text contents path htext hpath hread =>
    have hload : load files limit path = _ := load_of_readText hread
    rw [entriesOf_eq] at hload
    exact ⟨some path, #[], openAt_of_load htext hlimit hpath hload⟩

/-- **Cutting after every line is cutting once.** A history opened on any file with any limit holds
the last so many lines of the file, trimmed and without the blank ones. After any lines it holds the
last so many of those and the lines behind them, trimmed, without the blank ones and the ones that
repeat the entry just before them; it never holds more than its limit. Appending goes through,
unless the folders of the file are too deep to be made: then the entries are changed all the same,
but the call breaks off. -/
theorem truncated_once {files : Files} {path : Option String} {found : List String}
    {setting : Value} {n : Int}
    (hlimit : (if setting.isGiven then setting.toInt else .ok 1) = .ok n)
    (hfound : Found files path found) :
    let limit := (max 1 n).toNat
    let initial := lastOf limit (sifted found)
    ∃ h events, openAt files path setting = .ok (h, events) ∧ h.entries = initial ∧
      ∀ lines : List String,
        (lines.foldl added h).entries =
          lastOf limit (initial ++ withoutRepeats initial.getLast? (sifted lines)) ∧
        (lines.foldl added h).entries.length ≤ limit ∧
        ∀ files', (∃ files'' events', h.appendAll files' lines =
            .ok (lines.foldl added h, files'', events')) ∨
          (h.appendAll files' lines = .error .tooDeep ∧ h.TooDeep) := by
  intro limit initial
  obtain ⟨p, events, hopen⟩ := openAt_found (limitOf_eq hlimit) hfound
  have hone : 1 ≤ limit := by omega
  refine ⟨_, events, hopen, rfl, ?_⟩
  intro lines
  have hentries : (lines.foldl added ⟨limit, p, initial⟩).entries =
      retained limit initial lines := by
    rw [foldl_added_entries]
    dsimp only
    rw [← foldl_addEntry hone, lastOf_lastOf]
  refine ⟨hentries, ?_, fun files' => appendAll_returns _ files' lines⟩
  rw [hentries]
  exact length_retained_le limit initial lines

/-- A file whose last two lines are the same, and lines that repeat them, are blank or repeat each
other, for a limit of two. -/
theorem truncated_once_at_seam :
    let files := (Files.fresh ["w"]).put ["w", "h"] (.document (Utf8.encode "b\n\na \na".toList))
    ∃ h events, openAt files (some "h") (.int 2) = .ok (h, events) ∧ h.entries = ["a", "a"] ∧
      ([" a", "c", "", "c\t"].foldl added h).entries = ["a", "c"] ∧
      ([" a", "c", "", "c\t", "a"].foldl added h).entries = ["c", "a"] := by
  intro files
  have hresolve : files.resolve (.ofText "h") =
      .ok (["w", "h"], .document (Utf8.encode "b\n\na \na".toList)) := rfl
  have hread := Files.readText_of_resolve rfl hresolve
  have hfound : Found files (some "h") _ := .read (by decide) rfl hread
  have hlimit : (if (Value.int 2).isGiven then (Value.int 2).toInt else .ok 1) = .ok 2 := rfl
  obtain ⟨h, events, hopen, hinitial, hlines⟩ := truncated_once hlimit hfound
  refine ⟨h, events, hopen, hinitial.trans ?_, (hlines _).1.trans ?_, (hlines _).1.trans ?_⟩
  · decide +kernel
  · decide +kernel
  · decide +kernel

end Dis.Debugger.History
