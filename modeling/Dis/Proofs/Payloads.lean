import Dis.Debugger.Loop
import Dis.Proofs.Histories
/-!
# What the loops dispatch

The lines a loop reads fall into groups: lines that end in a backslash, and one that does not and
closes the group. `LineGroup.payload` is what a group says; `Cut` is the cut of all lines into
groups and an unclosed rest. It is said without the pieces a loop keeps waiting.

* `readLines_cut`: reading lines is handling the payloads of their groups, one after another, for
  whatever handles them.
* `handledAs` is what one payload does, `ran` what all of them do: each is recorded and dispatched,
  up to the first that leaves the loop.
* `leaving_broken_iff`: a loop that records is also left, before a dispatch, where the history's
  file lies under more missing folders than can be made.
* `loops_dispatch_groups`: both loops handle the payloads of the same groups.
* `deep_history_stops_loop`: a line on which they part.
-/
namespace Dis.Debugger

/-! ## Groups of lines -/

/-- The line goes on in the next: without the blanks at its end, it ends in a backslash. -/
def Continues (line : String) : Prop :=
  ['\\'] <:+ Text.trimRight line.toList

instance (line : String) : Decidable (Continues line) :=
  inferInstanceAs (Decidable (_ <:+ _))

/-- Lines that go on, and the one that ends them. -/
structure LineGroup where
  continued : List String
  last : String
  continues : ∀ line ∈ continued, Continues line
  ends : ¬ Continues last

/-- The lines of a group. -/
def LineGroup.lines (g : LineGroup) : List String :=
  g.continued ++ [g.last]

/-- What a line that goes on says: the blanks at its end and one backslash are dropped. -/
def pieceOf (line : String) : String :=
  String.ofList (Text.trimRight line.toList).dropLast

/-- What a group says: a line alone says itself, several are joined by spaces. -/
def LineGroup.payload (g : LineGroup) : String :=
  if g.continued = [] then g.last
  else " ".intercalate (g.continued.map pieceOf ++ [Text.rightTrimmed g.last])

/-- The lines are these groups and behind them lines that go on to no end. -/
structure Cut (lines : List String) (groups : List LineGroup) (rest : List String) : Prop where
  lines_eq : lines = groups.flatMap LineGroup.lines ++ rest
  unclosed : ∀ line ∈ rest, Continues line

theorem exists_cut (lines : List String) : ∃ groups rest, Cut lines groups rest := by
  induction lines with
  | nil => exact ⟨[], [], rfl, by simp⟩
  | cons line lines ih =>
    obtain ⟨groups, rest, rfl, hrest⟩ := ih
    by_cases hline : Continues line
    · cases groups with
      | nil => exact ⟨[], line :: rest, rfl, by simpa [hline] using hrest⟩
      | cons g groups =>
        have hcontinues : ∀ l ∈ line :: g.continued, Continues l := by
          simpa [hline] using g.continues
        exact ⟨⟨line :: g.continued, g.last, hcontinues, g.ends⟩ :: groups, rest,
          by simp [LineGroup.lines], hrest⟩
    · exact ⟨⟨[], line, by simp, hline⟩ :: groups, rest, by simp [LineGroup.lines], hrest⟩

/-! ## Reading lines -/

theorem continues_iff (line : String) :
    Continues line ↔ (Text.trimRight line.toList).getLast? = some '\\' := by
  unfold Continues
  rw [List.getLast?_eq_some_iff]
  constructor
  · intro h
    obtain ⟨text, h⟩ := h
    exact ⟨text, h.symm⟩
  · intro h
    obtain ⟨text, h⟩ := h
    exact ⟨text, h.symm⟩

theorem readLine_of_continues {line : String} (h : Continues line) (waiting : List String) :
    readLine waiting line = (pieceOf line :: waiting, none) := by
  unfold readLine
  rw [if_pos ((continues_iff line).1 h)]
  rfl

theorem readLine_of_ends {line : String} (h : ¬ Continues line) (waiting : List String) :
    readLine waiting line = ([], some (if waiting = [] then line
      else " ".intercalate (waiting.reverse ++ [Text.rightTrimmed line]))) := by
  unfold readLine
  rw [if_neg (fun hlast => h ((continues_iff line).2 hlast))]
  cases waiting with
  | nil => rfl
  | cons piece waiting => simp [Text.rightTrimmed]

section Handlers

variable {σ ε : Type} (handle : σ → String → Except ε σ)

/-- Lines that go on only wait. -/
theorem readLines_continued {lines : List String} (h : ∀ line ∈ lines, Continues line)
    (waiting more : List String) (s : σ) :
    readLines handle waiting s (lines ++ more) =
      readLines handle ((lines.map pieceOf).reverse ++ waiting) s more := by
  induction lines generalizing waiting with
  | nil => rfl
  | cons line lines ih =>
    have hline : Continues line := h line (by simp)
    have hlines : ∀ l ∈ lines, Continues l := fun l hl => h l (by simp [hl])
    rw [List.cons_append, readLines, readLine_of_continues hline]
    simp only
    rw [ih hlines]
    simp

/-- A group is handled once, when its last line is read, and leaves nothing waiting. -/
theorem readLines_group (g : LineGroup) (more : List String) (s : σ) :
    readLines handle [] s (g.lines ++ more) =
      handle s g.payload >>= fun s => readLines handle [] s more := by
  have hpayload : (if (g.continued.map pieceOf).reverse = [] then g.last
      else " ".intercalate ((g.continued.map pieceOf).reverse.reverse ++
        [Text.rightTrimmed g.last])) = g.payload := by
    simp [LineGroup.payload]
  rw [LineGroup.lines, List.append_assoc, readLines_continued handle g.continues, List.append_nil,
    List.singleton_append, readLines, readLine_of_ends g.ends, hpayload]
  simp only
  cases handle s g.payload <;> rfl

/-- Reading lines is handling the payloads of their groups in order. -/
theorem readLines_cut {lines rest : List String} {groups : List LineGroup}
    (h : Cut lines groups rest) (s : σ) :
    readLines handle [] s lines = (groups.map LineGroup.payload).foldlM handle s := by
  obtain ⟨rfl, hrest⟩ := h
  induction groups generalizing s with
  | nil =>
    have hwait := readLines_continued handle hrest [] [] s
    rw [List.append_nil] at hwait
    exact hwait
  | cons g groups ih =>
    rw [List.flatMap_cons, List.append_assoc, readLines_group, List.map_cons, List.foldlM_cons]
    simp only [ih]

end Handlers

/-! ## What one payload does -/

/-- How a fold over payloads ends a loop. -/
def LoopEnd.of : Except (Leaving × Desk) Desk → LoopEnd
  | .ok d => ⟨none, d⟩
  | .error (leaving, d) => ⟨some leaving, d⟩

/-- What handling a payload comes to: it is dispatched, with a history after it has been stored
there; where storing breaks off, it is in the history and not dispatched. -/
inductive HandledAs (patience : Nat) (d : Desk) (payload : String) :
    Except (Leaving × Desk) Desk → Prop
  | unrecorded (hh : d.history = none) : HandledAs patience d payload (d.answer patience payload)
  | recorded {h : History} {files : Files} {events : Array Event} (hh : d.history = some h)
      (hgoes : ¬ h.Breaks d.files payload)
      (hstore : h.store d.files payload = (h.added payload, .ok (files, events))) :
      HandledAs patience d payload (Desk.answer patience
        { d with history := some (h.added payload), files, events := d.events ++ events } payload)
  | brokenOff {h : History} (hh : d.history = some h) (hbreaks : h.Breaks d.files payload) :
      HandledAs patience d payload
        (.error (.broken .tooDeep, { d with history := some (h.added payload) }))

theorem handledAs (patience : Nat) (d : Desk) (payload : String) :
    HandledAs patience d payload (d.handle patience payload) := by
  unfold Desk.handle Desk.record
  cases hh : d.history with
  | none => exact .unrecorded hh
  | some h =>
    rcases h.store_cases d.files payload with ⟨hgoes, files, events, hstore⟩ | ⟨hbreaks, hstore⟩
    · simp only [hstore]
      exact .recorded hh hgoes hstore
    · simp only [hstore]
      exact .brokenOff hh hbreaks

theorem answer_history (patience : Nat) (d : Desk) (payload : String) :
    (LoopEnd.of (d.answer patience payload)).desk.history = d.history := by
  unfold Desk.answer
  generalize dispatch ⟨d.files, patience⟩ d.context d.armed payload = reply
  obtain ⟨context, armed, outcome, events⟩ := reply
  cases outcome <;> rfl

theorem answer_ne_broken (patience : Nat) (d : Desk) (payload : String) (e : DocumentError) :
    (LoopEnd.of (d.answer patience payload)).leaving ≠ some (.broken e) := by
  unfold Desk.answer
  generalize dispatch ⟨d.files, patience⟩ d.context d.armed payload = reply
  obtain ⟨context, armed, outcome, events⟩ := reply
  cases outcome <;> exact nofun

section HandledAs

variable {patience : Nat} {d : Desk} {payload : String} {result : Except (Leaving × Desk) Desk}

/-- Whatever becomes of a payload, it is added to the history, if there is one. -/
theorem HandledAs.history (h : HandledAs patience d payload result) :
    (LoopEnd.of result).desk.history = d.history.map (·.added payload) := by
  cases h with
  | unrecorded hh => rw [answer_history, hh]; rfl
  | recorded hh hgoes hstore => rw [answer_history, hh]; rfl
  | brokenOff hh hbreaks => rw [hh]; rfl

theorem HandledAs.leaving_broken_iff (h : HandledAs patience d payload result)
    (e : DocumentError) :
    (LoopEnd.of result).leaving = some (.broken e) ↔
      e = .tooDeep ∧ ∃ h, d.history = some h ∧ h.Breaks d.files payload := by
  cases h with
  | unrecorded hh =>
    refine iff_of_false (answer_ne_broken _ _ _ e) ?_
    rintro ⟨-, h, hh', -⟩
    rw [hh] at hh'
    cases hh'
  | recorded hh hgoes hstore =>
    refine iff_of_false (answer_ne_broken _ _ _ e) ?_
    rintro ⟨-, h, hh', hbreaks⟩
    rw [hh] at hh'
    cases hh'
    exact hgoes hbreaks
  | brokenOff hh hbreaks =>
    constructor
    · intro hleaving
      cases hleaving
      exact ⟨rfl, _, hh, hbreaks⟩
    · rintro ⟨rfl, -⟩
      rfl

end HandledAs

/-! ## What all payloads do -/

/-- A monadic fold fails where its function first does. -/
theorem foldlM_eq_error_iff {α σ ε : Type} {f : σ → α → Except ε σ} {xs : List α} {s : σ} {e : ε} :
    xs.foldlM f s = .error e ↔ ∃ before x after s', xs = before ++ x :: after ∧
      before.foldlM f s = .ok s' ∧ f s' x = .error e := by
  constructor
  · intro h
    induction xs generalizing s with
    | nil => cases h
    | cons x xs ih =>
      rw [List.foldlM_cons] at h
      cases hx : f s x with
      | error e' =>
        rw [hx] at h
        cases h
        exact ⟨[], x, xs, s, rfl, rfl, hx⟩
      | ok s₁ =>
        rw [hx] at h
        obtain ⟨before, y, after, s', rfl, hbefore, hy⟩ := ih h
        refine ⟨x :: before, y, after, s', rfl, ?_, hy⟩
        rw [List.foldlM_cons, hx]
        exact hbefore
  · rintro ⟨before, x, after, s', rfl, hbefore, hx⟩
    rw [List.foldlM_append, hbefore, ok_bind, List.foldlM_cons, hx]
    rfl

theorem history_of_foldlM {patience : Nat} {d d' : Desk} {payloads : List String}
    (h : payloads.foldlM (Desk.handle patience) d = .ok d') :
    d'.history = d.history.map fun h => payloads.foldl History.added h := by
  induction payloads generalizing d with
  | nil =>
    cases h
    exact Option.map_id'.symm
  | cons payload payloads ih =>
    rw [List.foldlM_cons] at h
    cases hhandle : d.handle patience payload with
    | error stop => rw [hhandle] at h; cases h
    | ok d₁ =>
      have hadded := (handledAs patience d payload).history
      rw [hhandle] at h hadded
      rw [ih h, show d₁.history = _ from hadded, Option.map_map]
      rfl

/-- How a loop over payloads ended: they were all handled, or one left the loop after those before
it were handled. What was handled, and nothing else, has been added to the history in order. -/
inductive Ran (patience : Nat) (d : Desk) (payloads : List String) : LoopEnd → Prop
  | through {d' : Desk} (hhandled : payloads.foldlM (Desk.handle patience) d = .ok d')
      (hhistory : d'.history = d.history.map fun h => payloads.foldl History.added h) :
      Ran patience d payloads ⟨none, d'⟩
  | left {before after : List String} {payload : String} {leaving : Leaving} {d₁ d₂ : Desk}
      (hpayloads : payloads = before ++ payload :: after)
      (hbefore : before.foldlM (Desk.handle patience) d = .ok d₁)
      (hleft : d₁.handle patience payload = .error (leaving, d₂))
      (hhistory : d₂.history = d.history.map fun h =>
        (before ++ [payload]).foldl History.added h) :
      Ran patience d payloads ⟨some leaving, d₂⟩

theorem ran (patience : Nat) (d : Desk) (payloads : List String) :
    Ran patience d payloads (.of (payloads.foldlM (Desk.handle patience) d)) := by
  cases hfold : payloads.foldlM (Desk.handle patience) d with
  | ok d' => exact .through hfold (history_of_foldlM hfold)
  | error stop =>
    obtain ⟨before, payload, after, d₁, hpayloads, hbefore, hleft⟩ := foldlM_eq_error_iff.1 hfold
    have hadded := (handledAs patience d₁ payload).history
    rw [hleft, history_of_foldlM hbefore, Option.map_map] at hadded
    refine .left hpayloads hbefore hleft ?_
    simp only [List.foldl_append]
    exact hadded

/-- Storing one of the payloads breaks off, after those before it were handled. -/
def BreaksOff (patience : Nat) (d : Desk) (payloads : List String) : Prop :=
  ∃ before payload after d' h, payloads = before ++ payload :: after ∧
    before.foldlM (Desk.handle patience) d = .ok d' ∧ d'.history = some h ∧
    h.Breaks d'.files payload

theorem leaving_broken_iff (patience : Nat) (d : Desk) (payloads : List String)
    (e : DocumentError) :
    (LoopEnd.of (payloads.foldlM (Desk.handle patience) d)).leaving = some (.broken e) ↔
      e = .tooDeep ∧ BreaksOff patience d payloads := by
  constructor
  · intro hleaving
    cases hfold : payloads.foldlM (Desk.handle patience) d with
    | ok d' => rw [hfold] at hleaving; cases hleaving
    | error stop =>
      rw [hfold] at hleaving
      obtain ⟨before, payload, after, d', hpayloads, hbefore, hleft⟩ :=
        foldlM_eq_error_iff.1 hfold
      have hbroken := (handledAs patience d' payload).leaving_broken_iff e
      rw [hleft] at hbroken
      obtain ⟨rfl, h, hh, hbreaks⟩ := hbroken.1 hleaving
      exact ⟨rfl, before, payload, after, d', h, hpayloads, hbefore, hh, hbreaks⟩
  · rintro ⟨rfl, before, payload, after, d', h, hpayloads, hbefore, hh, hbreaks⟩
    have hbroken := ((handledAs patience d' payload).leaving_broken_iff .tooDeep).2
      ⟨rfl, h, hh, hbreaks⟩
    cases hleft : d'.handle patience payload with
    | ok d'' => rw [hleft] at hbroken; cases hbroken
    | error stop =>
      rw [foldlM_eq_error_iff.2 ⟨before, payload, after, d', hpayloads, hbefore, hleft⟩]
      rw [hleft] at hbroken
      exact hbroken

/-- Only the file's path decides whether storing can break off at all. -/
theorem BreaksOff.tooDeep {patience : Nat} {d : Desk} {payloads : List String}
    (hbreaks : BreaksOff patience d payloads) : ∃ h, d.history = some h ∧ h.TooDeep := by
  obtain ⟨before, payload, after, d', h', -, hbefore, hh', hstops⟩ := hbreaks
  rw [history_of_foldlM hbefore] at hh'
  obtain ⟨h, hh, rfl⟩ := Option.map_eq_some_iff.1 hh'
  obtain ⟨path, hpath, hdeep⟩ := hstops.tooDeep
  rw [History.foldl_added_path] at hpath
  exact ⟨h, hh, path, hpath, hdeep⟩

/-! ## Both loops -/

/-- The end of the input also ends the line of the prompt. -/
def LoopEnd.closed (stop : LoopEnd) : LoopEnd :=
  if stop.leaving = none then
    { stop with desk := { stop.desk with events := stop.desk.events.push (.outLine "") } }
  else stop

theorem typedLines_map_some (lines : List String) : typedLines (lines.map some) = lines := by
  have htyped : (lines.map some).takeWhile Option.isSome = lines.map some := by
    induction lines with
    | nil => rfl
    | cons line lines ih => simp [ih]
  rw [typedLines, htyped]
  simp

theorem interactiveLoop_eq (patience : Nat) (d : Desk) (lines : List String) :
    interactiveLoop patience d (lines.map some) = (runLines patience d lines).closed := by
  unfold interactiveLoop LoopEnd.closed
  rw [typedLines_map_some]
  obtain ⟨leaving, desk⟩ := runLines patience d lines
  cases leaving with
  | none => rfl
  | some leaving => rfl

theorem runLines_cut (patience : Nat) (d : Desk) {lines rest : List String}
    {groups : List LineGroup} (h : Cut lines groups rest) :
    runLines patience d lines =
      .of ((groups.map LineGroup.payload).foldlM (Desk.handle patience) d) := by
  rw [← readLines_cut _ h]
  rfl

/-- **What the loops dispatch.** The lines fall into groups and an unclosed rest. Both loops handle
the payloads of the groups, one after another, until one leaves the loop, and never the rest. To
handle a payload is to dispatch it once; the interactive loop adds each payload to its history
before it dispatches it, and nothing else. It is left without a dispatch if and only if the payload
is new to the history and more folders are missing on the way to its file than can be made at once,
which takes a path of more than `Files.nestingLimit` parts. -/
theorem loops_dispatch_groups (patience : Nat) (d : Desk) (lines : List String) :
    (∃ groups rest, Cut lines groups rest) ∧
      (∀ groups rest, Cut lines groups rest →
        let payloads := groups.map LineGroup.payload
        let silent : Desk := { d with history := none }
        let plain := LoopEnd.of (payloads.foldlM (Desk.handle patience) silent)
        let recorded := LoopEnd.of (payloads.foldlM (Desk.handle patience) d)
        (plainLoop patience d lines = plain ∧ Ran patience silent payloads plain) ∧
        (interactiveLoop patience d (lines.map some) = recorded.closed ∧
          Ran patience d payloads recorded) ∧
        (∀ e, plain.leaving ≠ some (.broken e)) ∧
        ∀ e, recorded.leaving = some (.broken e) ↔
          e = .tooDeep ∧ BreaksOff patience d payloads) ∧
      (∀ (d : Desk) (payload : String), HandledAs patience d payload (d.handle patience payload)) ∧
      ∀ payloads, BreaksOff patience d payloads → ∃ h, d.history = some h ∧ h.TooDeep := by
  refine ⟨exists_cut lines, ?_, handledAs patience, fun _ => BreaksOff.tooDeep⟩
  intro groups rest hcut payloads silent plain recorded
  refine ⟨⟨runLines_cut patience silent hcut, ran patience silent payloads⟩,
    ⟨?_, ran patience d payloads⟩, ?_, leaving_broken_iff patience d payloads⟩
  · rw [interactiveLoop_eq, runLines_cut patience d hcut]
  · intro e hbroken
    obtain ⟨h, hh, -⟩ := ((leaving_broken_iff patience silent payloads e).1 hbroken).2.tooDeep
    cases hh

/-! ## A history too deep -/

/-- A path of `n` folders, one in the other. -/
def nested (n : Nat) : Path :=
  ⟨"", List.replicate n "a"⟩

theorem utf8ByteSize_nested (n : Nat) : (nested (n + 1)).text.utf8ByteSize = 2 * n + 1 := by
  have hsize : ∀ n, ("/".intercalate (List.replicate (n + 1) "a")).utf8ByteSize = 2 * n + 1 := by
    intro n
    induction n with
    | zero => decide
    | succ n ih =>
      rw [List.replicate_succ, List.replicate_succ, String.intercalate_cons_cons,
        ← List.replicate_succ, String.utf8ByteSize_append, ih,
        show ("a" ++ "/").utf8ByteSize = 2 by decide]
      omega
  show ("" ++ "/".intercalate (List.replicate (n + 1) "a")).utf8ByteSize = _
  rw [String.empty_append, hsize]

theorem resolve_nested {n : Nat} (hn : n < 2047) :
    (Files.fresh ["w"]).resolve (nested (n + 1)) = .error .missing := by
  have hlimit : Files.pathLimit = 4095 := rfl
  unfold Files.resolve
  rw [utf8ByteSize_nested, if_neg (by omega)]
  show Files.walk [] (Files.fresh ["w"]).root ("w" :: "a" :: List.replicate n "a") = _
  rw [show (Files.fresh ["w"]).root = .folder [("w", .folder [])] from rfl,
    Files.walk_down (by decide) (by decide) rfl]
  exact Files.walk_missing (by decide) (by decide) rfl

/-- None of the folders of a nested path are there, so making more than the limit breaks off. -/
theorem makeFolders_nested {n : Nat} (hdeep : Files.nestingLimit < n) (hn : n ≤ 2047) :
    (Files.fresh ["w"]).makeFolders Files.nestingLimit (nested n) =
      (Files.fresh ["w"], some .tooDeep) := by
  refine Files.makeFolders_tooDeep (by simpa [nested] using hdeep) ?_
  intro parts hpre hparts
  obtain ⟨k, hk, rfl⟩ : ∃ k < 2047, parts = List.replicate (k + 1) "a" := by
    have hlength : parts.length ≤ n := by simpa [nested] using hpre.length_le
    have hpos : 0 < parts.length := List.length_pos_iff.2 hparts
    refine ⟨parts.length - 1, by omega, ?_⟩
    rw [Nat.sub_add_cancel hpos]
    exact List.eq_replicate_of_mem fun part hpart =>
      List.eq_of_mem_replicate (hpre.subset hpart)
  exact resolve_nested hk

/-- With a history twelve hundred folders deep, none of them there, the plain loop takes `exit 3`
and the interactive loop breaks off before it does. -/
theorem deep_history_stops_loop :
    let history : History := ⟨History.defaultLimit, some (nested 1200), []⟩
    let d : Desk := ⟨{}, none, .fresh ["w"], some history, #[]⟩
    (plainLoop 0 d ["exit 3"]).leaving = some (.exit 3) ∧
      (interactiveLoop 0 d [some "exit 3"]).leaving = some (.broken .tooDeep) := by
  intro history d
  have hparent : (nested 1200).parent = nested 1199 := by
    rw [nested, nested, Path.parent, List.dropLast_replicate]
  have hbreaks : history.Breaks d.files "exit 3" := by
    refine ⟨by decide, nested 1200, rfl, ?_⟩
    rw [hparent]
    show ((Files.fresh ["w"]).makeFolders _ _).2 = _
    rw [makeFolders_nested (by decide) (by decide)]
  have hleaving : (runLines 0 d ["exit 3"]).leaving = some (.broken .tooDeep) := by
    have hcut : Cut ["exit 3"] [⟨[], "exit 3", by simp, by decide⟩] [] := ⟨rfl, by simp⟩
    rw [runLines_cut 0 d hcut]
    exact (leaving_broken_iff 0 d ["exit 3"] .tooDeep).2
      ⟨rfl, [], "exit 3", [], d, history, rfl, rfl, rfl, hbreaks⟩
  refine ⟨by rfl, ?_⟩
  rw [show [some "exit 3"] = ["exit 3"].map some from rfl, interactiveLoop_eq, LoopEnd.closed,
    if_neg (by rw [hleaving]; simp)]
  exact hleaving

end Dis.Debugger
