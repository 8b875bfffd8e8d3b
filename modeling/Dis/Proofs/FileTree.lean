import Dis.Files
import Dis.Proofs.WellFormedUtf8
/-!
# What was written can be read

A path is followed part by part, up and down the tree, so what it leads to after a write is a
question about every folder on the way. `Node.at?` is what lies at a location, and `Visits` says
how the parts of a path lead from one location to another, without the trail that `walk` keeps.

* `walk_visits`, `visits_walk`: `walk` succeeds exactly along such a way.
* `at?_modify_self`, `at?_modify_of_at?`: what is put at a location is there, and everything else
  keeps its place; a document put where no folder was takes no folder from any way.
* `readText_of_writeText`: a text just written is read back from the same path, with its newlines
  unified.
* `makeFolders_error`: folders can be made unless a file is in the way or too many are missing.
-/
namespace Dis

namespace Node

/-- What lies at a location. -/
def at? (n : Node) : Location → Option Node
  | [] => some n
  | name :: rest => (n.entry? name).bind (·.at? rest)

/-- Whether a node is a folder. -/
def IsFolder (n : Node) : Prop :=
  ∃ entries, n = folder entries

theorem isFolder_folder (entries : List (String × Node)) : (folder entries).IsFolder :=
  ⟨entries, rfl⟩

theorem not_isFolder_document (bytes : List UInt8) : ¬ (document bytes).IsFolder := by
  intro h
  obtain ⟨entries, h⟩ := h
  cases h

/-! ## Entries and locations -/

theorem entries_setEntry (n : Node) (name : String) (inner : Node) :
    (n.setEntry name inner).entries = n.entries.filter (·.1 ≠ name) ++ [(name, inner)] := rfl

theorem entry?_setEntry_self (n : Node) (name : String) (inner : Node) :
    Node.entry? (n.setEntry name inner) name = some inner := by
  have hgone : (n.entries.filter (·.1 ≠ name)).find? (·.1 = name) = none := by
    simp [List.find?_eq_none]
  unfold entry?
  rw [entries_setEntry, List.find?_append, hgone]
  simp

theorem entry?_setEntry_of_ne (n : Node) {name other : String} (h : other ≠ name) (inner : Node) :
    Node.entry? (n.setEntry name inner) other = n.entry? other := by
  have hkept : (n.entries.filter (·.1 ≠ name)).find? (·.1 = other) =
      n.entries.find? (·.1 = other) := by
    rw [List.find?_filter]
    congr 1
    funext e
    by_cases he : e.1 = other <;> simp [he, h]
  have hnew : ([(name, inner)] : List (String × Node)).find? (·.1 = other) = none := by
    simp [Ne.symm h]
  unfold entry?
  rw [entries_setEntry, List.find?_append, hkept, hnew, Option.or_none]

theorem at?_append (n : Node) (loc rest : Location) :
    n.at? (loc ++ rest) = (n.at? loc).bind (·.at? rest) := by
  induction loc generalizing n with
  | nil => rfl
  | cons name loc ih =>
    cases he : n.entry? name with
    | none => simp [at?, he]
    | some inner => simp [at?, he, ih]

theorem at?_concat (n : Node) (loc : Location) (name : String) :
    n.at? (loc ++ [name]) = (n.at? loc).bind fun inner => inner.entry? name := by
  rw [at?_append]
  cases n.at? loc with
  | none => rfl
  | some inner => simp [at?]

theorem at?_modify_self (n : Node) (loc : Location) (x : Node) :
    (n.modify loc fun _ => x).at? loc = some x := by
  induction loc generalizing n with
  | nil => rfl
  | cons name loc ih =>
    rw [modify, at?, entry?_setEntry_self]
    exact ih _

/-- What lay in the tree still lies there when something is put at a location that held no folder;
and what was a folder still is one. -/
theorem at?_modify_of_at? {n node : Node} {loc here : Location} (x : Node)
    (hloc : ∀ old, n.at? loc = some old → ¬ old.IsFolder) (hhere : n.at? here = some node) :
    ∃ node', (n.modify loc fun _ => x).at? here = some node' ∧
      (node.IsFolder → node'.IsFolder) := by
  induction loc generalizing n here with
  | nil =>
    have hdoc := hloc n rfl
    cases here with
    | nil =>
      cases hhere
      exact ⟨x, rfl, fun h => absurd h hdoc⟩
    | cons name here =>
      cases n with
      | folder entries => exact absurd (isFolder_folder entries) hdoc
      | document bytes => simp [at?, entry?, entries] at hhere
  | cons name loc ih =>
    rw [modify]
    cases here with
    | nil => exact ⟨_, rfl, fun _ => isFolder_folder _⟩
    | cons other here =>
      by_cases heq : other = name
      · subst heq
        rw [at?] at hhere
        obtain ⟨inner, hinner, hhere⟩ := Option.bind_eq_some_iff.1 hhere
        have hloc' : ∀ old, inner.at? loc = some old → ¬ old.IsFolder := by
          intro old hold
          exact hloc old (by rw [at?, hinner]; exact hold)
        rw [at?, entry?_setEntry_self, hinner]
        exact ih hloc' hhere
      · rw [at?, entry?_setEntry_of_ne n heq]
        exact ⟨node, hhere, id⟩

end Node

namespace Files

/-! ## The way a path takes -/

/-- The parts lead from one location to another, through folders only. -/
inductive Visits (root : Node) : Location → List String → Location → Prop
  | here (loc : Location) : Visits root loc [] loc
  | up {here loc : Location} {node : Node} {parts : List String} (hnode : root.at? here = some node)
      (hfolder : node.IsFolder) (h : Visits root here.dropLast parts loc) :
      Visits root here (".." :: parts) loc
  | down {here loc : Location} {node inner : Node} {name : String} {parts : List String}
      (hnode : root.at? here = some node) (hfolder : node.IsFolder) (hname : name ≠ "..")
      (hsize : name.utf8ByteSize ≤ nameLimit) (hinner : root.at? (here ++ [name]) = some inner)
      (h : Visits root (here ++ [name]) parts loc) : Visits root here (name :: parts) loc

/-- The trail leads from the root to the node. -/
inductive Leads (root : Node) : Trail → Node → Prop
  | root : Leads root [] root
  | step {trail : Trail} {above node : Node} {name : String} (h : Leads root trail above)
      (hentry : above.entry? name = some node) : Leads root ((name, above) :: trail) node

/-- The location a trail has come to. -/
def locationOf (trail : Trail) : Location :=
  (trail.map (·.1)).reverse

theorem locationOf_cons (name : String) (above : Node) (trail : Trail) :
    locationOf ((name, above) :: trail) = locationOf trail ++ [name] := by
  simp [locationOf]

theorem Leads.at? {root node : Node} {trail : Trail} (h : Leads root trail node) :
    root.at? (locationOf trail) = some node := by
  induction h with
  | root => rfl
  | step _ hentry ih => rw [locationOf_cons, Node.at?_concat, ih]; exact hentry

section Walk

variable {trail : Trail} {entries : List (String × Node)} {part : String} {parts : List String}

theorem walk_document (bytes : List UInt8) :
    walk trail (.document bytes) (part :: parts) = .error .notFolder := rfl

theorem walk_tooLong (h : nameLimit < part.utf8ByteSize) :
    walk trail (.folder entries) (part :: parts) = .error .tooLong := by
  unfold walk
  exact if_pos h

theorem walk_up_root :
    walk [] (.folder entries) (".." :: parts) = walk [] (.folder entries) parts := by
  rw [walk.eq_def]
  exact (if_neg (by decide)).trans (if_pos rfl)

theorem walk_up {name : String} {above : Node} :
    walk ((name, above) :: trail) (.folder entries) (".." :: parts) = walk trail above parts := by
  rw [walk.eq_def]
  exact (if_neg (by decide)).trans (if_pos rfl)

theorem walk_missing (hsize : part.utf8ByteSize ≤ nameLimit) (hname : part ≠ "..")
    (h : Node.entry? (Node.folder entries) part = none) :
    walk trail (.folder entries) (part :: parts) = .error .missing := by
  rw [walk.eq_def]
  refine (if_neg (by omega)).trans ((if_neg hname).trans ?_)
  rw [h]

theorem walk_down {inner : Node} (hsize : part.utf8ByteSize ≤ nameLimit) (hname : part ≠ "..")
    (h : Node.entry? (Node.folder entries) part = some inner) :
    walk trail (.folder entries) (part :: parts) =
      walk ((part, .folder entries) :: trail) inner parts := by
  rw [walk.eq_def]
  refine (if_neg (by omega)).trans ((if_neg hname).trans ?_)
  rw [h]

end Walk

theorem walk_visits {root node node' : Node} {trail : Trail} {parts : List String} {loc : Location}
    (hleads : Leads root trail node) (h : walk trail node parts = .ok (loc, node')) :
    Visits root (locationOf trail) parts loc ∧ root.at? loc = some node' := by
  induction parts generalizing trail node with
  | nil =>
    cases h
    exact ⟨.here _, hleads.at?⟩
  | cons part parts ih =>
    cases node with
    | document bytes => rw [walk_document] at h; cases h
    | folder entries =>
      have hfolder := Node.isFolder_folder entries
      by_cases hsize : nameLimit < part.utf8ByteSize
      · rw [walk_tooLong hsize] at h; cases h
      by_cases hup : part = ".."
      · subst hup
        cases hleads with
        | root =>
          rw [walk_up_root] at h
          obtain ⟨hvisits, hat⟩ := ih .root h
          exact ⟨.up rfl hfolder hvisits, hat⟩
        | step hleads hentry =>
          rw [walk_up] at h
          obtain ⟨hvisits, hat⟩ := ih hleads h
          refine ⟨.up (Leads.step hleads hentry).at? hfolder ?_, hat⟩
          rw [locationOf_cons, List.dropLast_concat]
          exact hvisits
      · cases hentry : Node.entry? (Node.folder entries) part with
        | none => rw [walk_missing (by omega) hup hentry] at h; cases h
        | some inner =>
          rw [walk_down (by omega) hup hentry] at h
          have hnext := Leads.step hleads hentry
          obtain ⟨hvisits, hat⟩ := ih hnext h
          have hinner := hnext.at?
          rw [locationOf_cons] at hvisits hinner
          exact ⟨.down hleads.at? hfolder hup (by omega) hinner hvisits, hat⟩

theorem visits_walk {root node : Node} {trail : Trail} {parts : List String} {loc : Location}
    (hleads : Leads root trail node) (h : Visits root (locationOf trail) parts loc) :
    ∃ node', walk trail node parts = .ok (loc, node') := by
  induction parts generalizing trail node with
  | nil =>
    cases h
    exact ⟨node, rfl⟩
  | cons part parts ih =>
    have hat := hleads.at?
    cases h with
    | up hnode hfolder h =>
      rw [hat] at hnode
      cases hnode
      obtain ⟨entries, rfl⟩ := hfolder
      cases hleads with
      | root =>
        rw [walk_up_root]
        exact ih .root h
      | step hleads hentry =>
        rw [locationOf_cons, List.dropLast_concat] at h
        rw [walk_up]
        exact ih hleads h
    | @down _ _ _ inner _ _ hnode hfolder hname hsize hinner h =>
      rw [hat] at hnode
      cases hnode
      obtain ⟨entries, rfl⟩ := hfolder
      rw [Node.at?_concat, hat] at hinner
      have hentry : Node.entry? (Node.folder entries) part = some inner := hinner
      rw [walk_down hsize hname hentry]
      rw [← locationOf_cons part (Node.folder entries) trail] at h
      exact ih (.step hleads hentry) h

/-- A way ends where `walk` does, seen from the root. -/
theorem walk_root_eq_ok_iff {root node : Node} {parts : List String} {loc : Location} :
    walk [] root parts = .ok (loc, node) ↔ Visits root [] parts loc ∧ root.at? loc = some node := by
  constructor
  · intro h
    exact walk_visits .root h
  · intro h
    obtain ⟨hvisits, hat⟩ := h
    obtain ⟨node', hwalk⟩ := visits_walk .root hvisits
    obtain ⟨-, hat'⟩ := walk_visits .root hwalk
    rw [hat] at hat'
    cases hat'
    exact hwalk

/-- A way that is not there for want of its last part: the folder before lacks that name. -/
theorem walk_concat_missing {node : Node} {trail : Trail} {parts : List String} {last : String}
    {loc : Location} {entries : List (String × Node)}
    (h : walk trail node parts = .ok (loc, .folder entries))
    (hmissing : walk trail node (parts ++ [last]) = .error .missing) :
    last ≠ ".." ∧ last.utf8ByteSize ≤ nameLimit ∧
      Node.entry? (Node.folder entries) last = none := by
  induction parts generalizing trail node with
  | nil =>
    cases h
    rw [List.nil_append] at hmissing
    by_cases hsize : nameLimit < last.utf8ByteSize
    · rw [walk_tooLong hsize] at hmissing; cases hmissing
    by_cases hup : last = ".."
    · subst hup
      cases trail with
      | nil => rw [walk_up_root] at hmissing; cases hmissing
      | cons step trail =>
        obtain ⟨name, above⟩ := step
        rw [walk_up] at hmissing
        cases hmissing
    cases hentry : Node.entry? (Node.folder entries) last with
    | none => exact ⟨hup, by omega, rfl⟩
    | some inner =>
      rw [walk_down (by omega) hup hentry] at hmissing
      cases hmissing
  | cons part parts ih =>
    rw [List.cons_append] at hmissing
    cases node with
    | document bytes => rw [walk_document] at h; cases h
    | folder inside =>
      by_cases hsize : nameLimit < part.utf8ByteSize
      · rw [walk_tooLong hsize] at h; cases h
      by_cases hup : part = ".."
      · subst hup
        cases trail with
        | nil =>
          rw [walk_up_root] at h hmissing
          exact ih h hmissing
        | cons step trail =>
          obtain ⟨name, above⟩ := step
          rw [walk_up] at h hmissing
          exact ih h hmissing
      · cases hentry : Node.entry? (Node.folder inside) part with
        | none => rw [walk_missing (by omega) hup hentry] at h; cases h
        | some inner =>
          rw [walk_down (by omega) hup hentry] at h hmissing
          exact ih h hmissing

/-! ## Writing -/

/-- A document put where no folder was leaves every way as it was. -/
theorem Visits.modify {root : Node} {here loc target : Location} {parts : List String} (x : Node)
    (htarget : ∀ old, root.at? target = some old → ¬ old.IsFolder)
    (h : Visits root here parts loc) : Visits (root.modify target fun _ => x) here parts loc := by
  induction h with
  | here loc => exact .here loc
  | up hnode hfolder _ ih =>
    obtain ⟨node', hnode', hfolder'⟩ := Node.at?_modify_of_at? x htarget hnode
    exact .up hnode' (hfolder' hfolder) ih
  | down hnode hfolder hname hsize hinner _ ih =>
    obtain ⟨node', hnode', hfolder'⟩ := Node.at?_modify_of_at? x htarget hnode
    obtain ⟨inner', hinner', -⟩ := Node.at?_modify_of_at? x htarget hinner
    exact .down hnode' (hfolder' hfolder) hname hsize hinner' ih

/-- One part more, into a folder. -/
theorem Visits.concat {root node inner : Node} {here loc : Location} {parts : List String}
    {last : String} (h : Visits root here parts loc) (hnode : root.at? loc = some node)
    (hfolder : node.IsFolder) (hlast : last ≠ "..") (hsize : last.utf8ByteSize ≤ nameLimit)
    (hinner : root.at? (loc ++ [last]) = some inner) :
    Visits root here (parts ++ [last]) (loc ++ [last]) := by
  induction h with
  | here loc => exact .down hnode hfolder hlast hsize hinner (.here _)
  | up hnode' hfolder' _ ih => exact .up hnode' hfolder' (ih hnode hinner)
  | down hnode' hfolder' hname' hsize' hinner' _ ih =>
    exact .down hnode' hfolder' hname' hsize' hinner' (ih hnode hinner)

theorem follow_eq_ok_iff (f : Files) (p : Path) (loc : Location) (node : Node) :
    f.follow p = .ok (loc, node) ↔
      Visits f.root [] (f.start p ++ p.parts) loc ∧ f.root.at? loc = some node :=
  walk_root_eq_ok_iff

/-- Trees that differ in nothing but what they hold. -/
structure SamePlace (f f' : Files) : Prop where
  here : f'.here = f.here
  home : f'.home = f.home
  homes : f'.homes = f.homes

theorem SamePlace.refl (f : Files) : SamePlace f f :=
  ⟨rfl, rfl, rfl⟩

theorem SamePlace.trans {f f₁ f₂ : Files} (h : SamePlace f f₁) (h' : SamePlace f₁ f₂) :
    SamePlace f f₂ :=
  ⟨h'.here.trans h.here, h'.home.trans h.home, h'.homes.trans h.homes⟩

theorem SamePlace.expandHome {f f' : Files} (h : SamePlace f f') (p : Path) :
    f'.expandHome p = f.expandHome p := by
  unfold Files.expandHome homeOf
  rw [h.home, h.homes]

theorem put_samePlace (f : Files) (loc : Location) (n : Node) : SamePlace f (f.put loc n) :=
  ⟨rfl, rfl, rfl⟩

theorem resolve_eq_ok_iff (f : Files) (p : Path) (loc : Location) (node : Node) :
    f.resolve p = .ok (loc, node) ↔
      p.text.utf8ByteSize ≤ pathLimit ∧ f.follow p = .ok (loc, node) := by
  unfold resolve
  by_cases hsize : pathLimit < p.text.utf8ByteSize
  · rw [if_pos hsize]
    constructor
    · intro h; cases h
    · intro h; omega
  · rw [if_neg hsize]
    exact ⟨fun h => ⟨by omega, h⟩, fun h => h.2⟩

theorem resolve_eq_missing {f : Files} {p : Path} (h : f.resolve p = .error .missing) :
    p.text.utf8ByteSize ≤ pathLimit ∧ f.follow p = .error .missing := by
  unfold resolve at h
  by_cases hsize : pathLimit < p.text.utf8ByteSize
  · rw [if_pos hsize] at h; cases h
  · rw [if_neg hsize] at h
    exact ⟨by omega, h⟩

/-- A document written over another lies where that one lay. -/
theorem resolve_put_over {f : Files} {p : Path} {loc : Location} {old bytes : List UInt8}
    (h : f.resolve p = .ok (loc, .document old)) :
    (f.put loc (.document bytes)).resolve p = .ok (loc, .document bytes) := by
  obtain ⟨hsize, hfollow⟩ := (f.resolve_eq_ok_iff p loc _).1 h
  obtain ⟨hvisits, hat⟩ := (f.follow_eq_ok_iff p loc _).1 hfollow
  have hnot : ∀ node, f.root.at? loc = some node → ¬ node.IsFolder := by
    intro node hnode
    rw [hat] at hnode
    cases hnode
    exact Node.not_isFolder_document old
  refine (resolve_eq_ok_iff _ p loc _).2 ⟨hsize, (follow_eq_ok_iff _ p loc _).2 ⟨?_, ?_⟩⟩
  · exact hvisits.modify _ hnot
  · exact Node.at?_modify_self f.root loc _

/-- A document written into a folder that lacks its name lies in that folder. -/
theorem resolve_put_new {f : Files} {p : Path} {loc : Location} {last : String}
    {entries : List (String × Node)} {bytes : List UInt8} (h : f.resolve p = .error .missing)
    (hlast : p.parts.getLast? = some last)
    (hparent : f.resolve p.parent = .ok (loc, .folder entries)) :
    (f.put (loc ++ [last]) (.document bytes)).resolve p =
      .ok (loc ++ [last], .document bytes) := by
  obtain ⟨init, hparts⟩ := List.getLast?_eq_some_iff.1 hlast
  have hinit : p.parent.parts = init := by
    rw [Path.parent, hparts, List.dropLast_concat]
  obtain ⟨hsize, hmissing⟩ := resolve_eq_missing h
  obtain ⟨-, hfollow⟩ := (f.resolve_eq_ok_iff p.parent loc _).1 hparent
  have hway : walk [] f.root (f.start p ++ init) = .ok (loc, .folder entries) := by
    rw [← hinit]
    exact hfollow
  have hend : walk [] f.root ((f.start p ++ init) ++ [last]) = .error .missing := by
    rw [List.append_assoc, ← hparts]
    exact hmissing
  obtain ⟨hdots, hname, hentry⟩ := walk_concat_missing hway hend
  obtain ⟨hvisits, hat⟩ := walk_root_eq_ok_iff.1 hway
  have hnone : f.root.at? (loc ++ [last]) = none := by
    rw [Node.at?_concat, hat]
    exact hentry
  have hnot : ∀ node, f.root.at? (loc ++ [last]) = some node → ¬ node.IsFolder := by
    intro node hnode
    rw [hnone] at hnode
    cases hnode
  obtain ⟨folder', hat', hfolder'⟩ := Node.at?_modify_of_at? (.document bytes) hnot hat
  have hself := Node.at?_modify_self f.root (loc ++ [last]) (.document bytes)
  refine (resolve_eq_ok_iff _ p _ _).2 ⟨hsize, (follow_eq_ok_iff _ p _ _).2 ⟨?_, hself⟩⟩
  rw [hparts, ← List.append_assoc]
  exact (hvisits.modify _ hnot).concat hat' (hfolder' (Node.isFolder_folder entries)) hdots hname
    hself

theorem writeBytes_eq_ok {f f' : Files} {p : Path} {bytes : List UInt8}
    (h : f.writeBytes p bytes = .ok f') :
    SamePlace f f' ∧ ∃ loc, f'.resolve p = .ok (loc, .document bytes) := by
  unfold writeBytes at h
  cases hres : f.resolve p with
  | ok found =>
    obtain ⟨loc, node⟩ := found
    rw [hres] at h
    cases node with
    | folder entries => cases h
    | document old =>
      cases h
      exact ⟨put_samePlace f loc _, loc, resolve_put_over hres⟩
  | error t =>
    rw [hres] at h
    cases t with
    | missing =>
      cases hlast : p.parts.getLast? with
      | none => rw [hlast] at h; cases h
      | some last =>
        rw [hlast] at h
        cases hparent : f.resolve p.parent with
        | error t => rw [hparent] at h; cases h
        | ok found =>
          obtain ⟨loc, node⟩ := found
          rw [hparent] at h
          cases node with
          | document old => cases h
          | folder entries =>
            cases h
            exact ⟨put_samePlace f _ _, _, resolve_put_new hres hlast hparent⟩
    | present => cases h
    | notFolder => cases h
    | isFolder => cases h
    | tooLong => cases h

theorem readText_of_resolve {f : Files} {p : Path} {loc : Location} {cs : List Char}
    (hpath : checkPath p = .ok ()) (h : f.resolve p = .ok (loc, .document (Utf8.encode cs))) :
    f.readText p = .ok (String.ofList (Text.unifyNewlines cs)) := by
  unfold readText
  rw [hpath, ok_bind, h]
  simp only
  rw [Utf8.decode_encode, mapError_ok, ok_bind]

/-- A text just written is read back from where it was written. -/
theorem readText_of_writeText {f f' : Files} {p : Path} {s : String}
    (hpath : checkPath p = .ok ()) (h : f.writeText p s = .ok f') :
    SamePlace f f' ∧ f'.readText p = .ok (String.ofList (Text.unifyNewlines s.toList)) := by
  obtain ⟨hsame, loc, hres⟩ := writeBytes_eq_ok h
  exact ⟨hsame, readText_of_resolve hpath hres⟩

/-! ## Making folders -/

theorem settle_eq_some {f : Files} {p : Path} {t : Trouble} {e : DocumentError}
    (h : f.settle p t = some e) : ∃ e', e = .file e' := by
  unfold settle at h
  split at h
  · cases h
  · cases h
    exact ⟨_, rfl⟩

theorem ensureFolder_error {f f' : Files} {p : Path} {e : DocumentError}
    (h : f.ensureFolder p = (f', some e)) : ∃ e', e = .file e' := by
  unfold ensureFolder at h
  cases hmake : f.makeFolder p with
  | ok f₁ => rw [hmake] at h; cases h
  | error t =>
    rw [hmake] at h
    injection h with _ hsettle
    exact settle_eq_some hsettle

theorem makeFolder_samePlace {f f' : Files} {p : Path} (h : f.makeFolder p = .ok f') :
    SamePlace f f' := by
  unfold makeFolder at h
  by_cases hsize : pathLimit < p.text.utf8ByteSize
  · rw [if_pos hsize] at h; cases h
  rw [if_neg hsize] at h
  cases hlast : p.parts.getLast? with
  | none => rw [hlast] at h; cases h
  | some last =>
    rw [hlast] at h
    cases hparent : f.resolve p.parent with
    | error t => rw [hparent] at h; cases h
    | ok found =>
      obtain ⟨loc, node⟩ := found
      rw [hparent] at h
      cases node with
      | document old => cases h
      | folder entries =>
        simp only at h
        split at h
        · cases h
        split at h
        · cases h
        cases h
        exact ⟨rfl, rfl, rfl⟩

theorem ensureFolder_samePlace (f : Files) (p : Path) : SamePlace f (f.ensureFolder p).1 := by
  unfold ensureFolder
  cases hmake : f.makeFolder p with
  | ok f' => exact makeFolder_samePlace hmake
  | error t => exact .refl f

theorem makeFolders_samePlace (f : Files) (depth : Nat) (p : Path) :
    SamePlace f (f.makeFolders depth p).1 := by
  induction depth generalizing p with
  | zero => exact .refl f
  | succ depth ih =>
    unfold makeFolders
    cases hmake : f.makeFolder p with
    | ok f' => exact makeFolder_samePlace hmake
    | error t =>
      by_cases ht : t = .missing
      · subst ht
        have habove := ih p.parent
        simp only
        split
        · exact .refl f
        · cases hmore : f.makeFolders depth p.parent with
          | mk f₁ stop =>
            rw [hmore] at habove
            cases stop with
            | none => exact habove.trans (ensureFolder_samePlace f₁ p)
            | some e => exact habove
      · cases t with
        | missing => exact absurd rfl ht
        | _ => exact .refl f

/-- Folders can be made unless a file is in the way or too many are missing. -/
theorem makeFolders_error {f f' : Files} {depth : Nat} {p : Path} {e : DocumentError}
    (h : f.makeFolders depth p = (f', some e)) :
    (∃ e', e = .file e') ∨ (e = .tooDeep ∧ depth ≤ p.parts.length) := by
  induction depth generalizing p f' e with
  | zero =>
    cases h
    exact .inr ⟨rfl, Nat.zero_le _⟩
  | succ depth ih =>
    unfold makeFolders at h
    cases hmake : f.makeFolder p with
    | ok f₁ => rw [hmake] at h; cases h
    | error t =>
      rw [hmake] at h
      by_cases ht : t = .missing
      · subst ht
        by_cases hempty : p.parts.isEmpty = true
        · simp only [hempty, if_true] at h
          cases h
          exact .inl ⟨_, rfl⟩
        · simp only [hempty] at h
          cases habove : f.makeFolders depth p.parent with
          | mk f₁ stop =>
            rw [habove] at h
            cases stop with
            | none => exact .inl (ensureFolder_error h)
            | some e₁ =>
              cases h
              rcases ih habove with hfile | ⟨rfl, hdepth⟩
              · exact .inl hfile
              · right
                have hne : 0 < p.parts.length := by
                  rw [List.length_pos_iff]
                  simpa using hempty
                rw [Path.parent, List.length_dropLast] at hdepth
                exact ⟨rfl, by omega⟩
      · have hsettle : f.settle p t = some e := by
          cases t with
          | missing => exact absurd rfl ht
          | _ => exact (Prod.mk.inj h).2
        exact .inl (settle_eq_some hsettle)

/-- Where every folder on the way is missing, making them breaks off once there are too many. -/
theorem makeFolders_tooDeep {f : Files} {depth : Nat} {p : Path} (hdepth : depth < p.parts.length)
    (hmissing : ∀ parts, parts <+: p.parts → parts ≠ [] →
      f.resolve { p with parts } = .error .missing) :
    f.makeFolders depth p = (f, some .tooDeep) := by
  induction depth generalizing p with
  | zero => rfl
  | succ depth ih =>
    have hparts : p.parts ≠ [] := by
      rw [← List.length_pos_iff]
      omega
    have hlength : p.parent.parts.length = p.parts.length - 1 := by
      rw [Path.parent, List.length_dropLast]
    have hparent : p.parent.parts ≠ [] := by
      rw [← List.length_pos_iff]
      omega
    have hinit : p.parent.parts <+: p.parts := List.dropLast_prefix p.parts
    obtain ⟨hsize, -⟩ : p.text.utf8ByteSize ≤ pathLimit ∧ _ :=
      resolve_eq_missing (hmissing p.parts (List.prefix_refl _) hparts)
    have hmake : f.makeFolder p = .error .missing := by
      unfold makeFolder
      rw [if_neg (by omega), List.getLast?_eq_some_getLast hparts,
        show f.resolve p.parent = _ from hmissing p.parent.parts hinit hparent]
    have habove : f.makeFolders depth p.parent = (f, some .tooDeep) := by
      refine ih (by omega) ?_
      intro parts hpre
      exact hmissing parts (hpre.trans hinit)
    have hsome : p.parts.isEmpty = false := by simpa using hparts
    unfold makeFolders
    simp [hmake, habove, hsome]

end Files
end Dis
