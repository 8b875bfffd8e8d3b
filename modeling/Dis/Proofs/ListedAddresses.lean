import Dis.Proofs.Literals
import Dis.Proofs.StepAndRun
import Dis.Proofs.Traces
/-!
# Addresses of a listing, typed back

A listing shows addresses as decimal numerals of five digits, with zeros in front. An address that
is typed is read in automatic base, where a decimal numeral has no zero in front unless it is zero.

* `readAddress_decimal`, `addressOf_decimal`: what a row of digits is read as.
* `addressField_line`: the address as it stands in a line of a listing.
* `runMem_cases`: the lines that `mem` prints behind its heading are those of a listing;
  `runMem_listing`, `runMem_refusing`: what `mem` replies to one argument.
* `dispatch_mem`: what a line replies that gives `mem` an address as it is shown.
* `listed_address_typed_back_iff`: which addresses of a listing can be typed as they are shown.
* `listed_address_refused`: one that cannot.
-/
namespace Dis

/-! ## Rows of digits -/

namespace Text

variable {n : Nat} {cs : List Char}

/-- A row of digits is read as it is, in automatic base. -/
theorem readAddress_decimal (h : IsNumeral 10 n cs) :
    (readAddress (String.ofList cs)).toOption = (readAuto cs).map Int.ofNat := by
  have hsmall := h.small (by decide)
  rw [readAddress, (spells_self cs).lower_trim hsmall]
  split
  · next rest =>
    have ht : 't' ∈ '0' :: 't' :: rest := by simp
    exact absurd (h.isDigit 't' ht) (by decide)
  · cases hread : readUnsigned .auto cs with
    | none =>
      rw [readInt_of_not_readUnsigned hsmall.chars hread, ← readUnsigned, hread]
      rfl
    | some k =>
      rw [readInt_of_readUnsigned hsmall.chars hread, ← readUnsigned, hread]
      rfl

theorem IsNumeral.upperAscii_eq (h : IsNumeral 10 n cs) : upperAscii cs = cs := by
  have hupper : ∀ d < 10, upperAsciiChar (Nat.digitChar d) = [Nat.digitChar d] := by decide
  obtain ⟨ds, -, hds, rfl, -⟩ := h
  induction ds with
  | nil => rfl
  | cons d ds ih =>
    have hrest := ih fun e he => hds e (List.mem_cons_of_mem d he)
    rw [upperAscii] at hrest ⊢
    rw [List.map_cons, List.flatMap_cons, hupper d (hds d List.mem_cons_self), hrest]
    rfl

theorem length_toList_alignRight {width : Nat} {s : String} (h : s.length ≤ width) :
    (alignRight width s).toList.length = width := by
  rw [alignRight, String.toList_append, String.toList_ofList, List.length_append,
    List.length_replicate, String.length_toList]
  omega

end Text

/-! ## Lines of a listing -/

namespace Listing

/-- The address in a line of a listing, as it is shown there: behind the marks and a space, up to
the colon. -/
def addressField (line : String) : String :=
  String.ofList ((line.toList.drop 3).takeWhile (· ≠ ':'))

theorem toList_line (marks : Nat → String) (e : Entry) :
    (e.line marks).toList = (Text.alignRight 2 (marks e.address)).toList ++
      ' ' :: ((number e.address).toList ++
      ':' :: (" ".toList ++ (number e.word).toList ++ " ".toList ++ e.trits.toList ++
        "  ".toList ++ e.text.toList)) := by
  have hline : e.line marks = Text.alignRight 2 (marks e.address) ++ " " ++ number e.address ++
      ": " ++ number e.word ++ " " ++ e.trits ++ "  " ++ e.text := rfl
  have hspace : " ".toList = [' '] := rfl
  have hcolon : ": ".toList = ':' :: [' '] := rfl
  rw [hline]
  simp only [String.toList_append, hspace, hcolon, List.append_assoc, List.cons_append,
    List.nil_append]

theorem length_registerMarks (m : Machine) (address : Nat) :
    (registerMarks "CD" m address).length ≤ 2 := by
  unfold registerMarks
  repeat' split
  all_goals decide

theorem addressField_line (m : Machine) (e : Entry) :
    addressField (e.line (registerMarks "CD" m)) = number e.address := by
  have hmarks := Text.length_toList_alignRight (length_registerMarks m e.address)
  have hfield : ∀ c ∈ (number e.address).toList, decide (c ≠ ':') = true := by
    intro c hc
    simpa using Text.ne_of_isDigit (isDigit_of_mem_number hc) (by decide)
  rw [addressField, toList_line, List.drop_append, hmarks, List.drop_of_length_le (by omega)]
  simp only [List.nil_append, Nat.reduceSub, List.drop_succ_cons, List.drop_zero]
  rw [List.takeWhile_append_of_pos hfield, List.takeWhile_cons_of_neg (by decide), List.append_nil,
    String.ofList_toList]

/-- Zeros stand in front of the numbers below ten thousand. -/
theorem readAuto_number (n : Nat) :
    Text.readAuto (number n).toList = if n = 0 ∨ 10000 ≤ n then some n else none := by
  have hlength : 5 ≤ (toString n).length ↔ 10000 ≤ n := by
    have hle : (Nat.toDigits 10 n).length ≤ 4 ↔ n < 10 ^ 4 :=
      Nat.length_toDigits_le_iff (by decide) (by decide)
    rw [← String.length_toList, Text.toList_toString]
    omega
  simp only [number, Text.readAuto_zeroPadded, hlength]

theorem mem_ofMemory {memory : Memory} {start count : Int} {e : Entry}
    (h : e ∈ ofMemory memory start count) :
    e.address < Memory.size ∧ e = ⟨e.address, memory.read e.address⟩ := by
  obtain ⟨offset, -, rfl⟩ := List.mem_map.1 h
  refine ⟨?_, rfl⟩
  have hnonneg := Int.emod_nonneg (start + offset) (show (Memory.size : Int) ≠ 0 by decide)
  have hlt := Int.emod_lt_of_pos (start + offset) (show (0 : Int) < Memory.size by decide)
  exact (Int.toNat_lt hnonneg).2 hlt

end Listing

/-! ## Replies of `mem` -/

namespace Debugger

/-- What `mem` replies with a listing of `count` words from `start`: a heading and the lines, or one
document. -/
def listingReply (ctx : Context) (armed : Option Nat) (m : Machine) (start : Nat) (count : Int) :
    Reply :=
  let listing := Listing.ofMemory m.memory start count
  Reply.only ctx armed 0
    (ctx.result s!"memory @{Listing.number start}:"
        (.obj [("start", .num start), ("words", .arr (listing.map entryJson))]) ++
      (if ctx.json then []
        else listing.map fun e => Event.outLine (e.line (Listing.registerMarks "CD" m))).toArray)

theorem addressOf_decimal (m : Machine) {n : Nat} {text : String}
    (h : Text.IsNumeral 10 n text.toList) :
    addressOf m text = (Text.readAuto text.toList).map Int.ofNat := by
  have hread := Text.readAddress_decimal h
  rw [String.ofList_toList] at hread
  have hletter : ∀ {c : Char}, c.isDigit = false → text.toList ≠ [c] := by
    intro c hc heq
    rw [heq] at h
    exact Text.ne_of_isDigit (h.isDigit c (by simp)) hc rfl
  unfold addressOf
  rw [h.upperAscii_eq]
  split
  · next heq => exact absurd heq (hletter (by decide))
  · next heq => exact absurd heq (hletter (by decide))
  · exact hread

theorem result_events (ctx : Context) (message : String) (data : Json) :
    ∃ heading, ctx.result message data = #[heading] := by
  unfold Context.result resultEvents
  split <;> exact ⟨_, rfl⟩

theorem error_events (ctx : Context) (message : String) :
    ∃ event, ctx.error message = #[event] := by
  unfold Context.error errorEvents
  split <;> exact ⟨_, rfl⟩

/-- The texts that a reply prints behind the first one, one for each event. -/
def Reply.furtherTexts (reply : Reply) : List String :=
  (reply.events.toList.drop 1).map Event.outText

theorem newline_inj {line line' : String} (h : line ++ "\n" = line' ++ "\n") : line = line' := by
  have hchars := congrArg String.toList h
  rw [String.toList_append, String.toList_append] at hchars
  exact String.toList_inj.1 (List.append_cancel_right hchars)

theorem furtherTexts_listingReply (ctx : Context) (armed : Option Nat) (m : Machine) (start : Nat)
    (count : Int) :
    (listingReply ctx armed m start count).furtherTexts =
      if ctx.json then []
      else (Listing.ofMemory m.memory start count).map fun e =>
        e.line (Listing.registerMarks "CD" m) ++ "\n" := by
  obtain ⟨heading, hheading⟩ := result_events ctx s!"memory @{Listing.number start}:"
    (.obj [("start", .num start),
      ("words", .arr ((Listing.ofMemory m.memory start count).map entryJson))])
  simp only [Reply.furtherTexts, listingReply, Reply.only]
  rw [hheading, Array.toList_append, List.singleton_append, List.drop_succ_cons, List.drop_zero]
  split
  · rfl
  · rw [List.map_map]
    rfl

/-- A line behind the heading of a listing is the line of one of its words. -/
theorem mem_listingReply {ctx : Context} {armed : Option Nat} {m : Machine} {start : Nat}
    {count : Int} {line : String}
    (h : line ++ "\n" ∈ (listingReply ctx armed m start count).furtherTexts) :
    ∃ address < Memory.size,
      line = Listing.Entry.line (Listing.registerMarks "CD" m) ⟨address, m.memory.read address⟩ := by
  rw [furtherTexts_listingReply] at h
  split at h
  · simp at h
  · obtain ⟨e, he, heq⟩ := List.mem_map.1 h
    obtain ⟨hlt, hword⟩ := Listing.mem_ofMemory he
    exact ⟨e.address, hlt, by rw [← hword, newline_inj heq]⟩

/-- The arguments of `mem`. -/
def memSpec : Options.Spec MemArguments :=
  Command.mem.spec [] [
    ⟨"address", false, Options.anyText fun text s => { s with address := some text }⟩,
    ⟨"count", false, Options.integer fun n s => { s with count := n }⟩]

theorem memSpec_parse {text : String} (hdash : text.toList.head? ≠ some '-') :
    memSpec.parse {} [text] = .parsed { address := some text } :=
  Options.Spec.parse_first memSpec _ _ rfl (by simp) hdash rfl

section Mem

variable {ctx : Context} {armed : Option Nat} {r : Runner} (hr : ctx.runner = some r)
include hr

/-- `mem` always replies, with a listing or with no line of output but the first. -/
theorem runMem_cases (args : List String) :
    ∃ reply, runMem ctx armed args = .ok reply ∧
      ((∃ start count, reply = listingReply ctx armed r.machine start count) ∨
        ∀ line, line ++ "\n" ∉ reply.furtherTexts) := by
  have hrefused : ∀ message line,
      line ++ "\n" ∉ (Reply.refuse ctx armed 1 message).furtherTexts := by
    intro message line
    obtain ⟨event, hevent⟩ := error_events ctx message
    simp [Reply.furtherTexts, Reply.refuse, Reply.only, hevent]
  unfold runMem withArguments
  simp only [Context.requireRunner, hr]
  split
  · split
    · exact ⟨_, rfl, .inr (hrefused _)⟩
    · next start _ =>
      split
      · exact ⟨_, rfl, .inr (hrefused _)⟩
      · next hrange =>
        obtain ⟨n, rfl⟩ : ∃ n : Nat, start = n := by
          simp only [Bool.or_eq_true, decide_eq_true_eq, not_or] at hrange
          exact Int.eq_ofNat_of_zero_le (by omega)
        exact ⟨_, rfl, .inl ⟨n, _, rfl⟩⟩
  · exact ⟨_, rfl, .inr (by simp [Reply.furtherTexts, Reply.only])⟩
  · refine ⟨_, rfl, .inr fun line => ?_⟩
    simp [Reply.furtherTexts, Reply.only, Options.Spec.complain, Event.errLine, Event.outText]

theorem runMem_listing {text : String} {n : Nat} (hdash : text.toList.head? ≠ some '-')
    (haddress : addressOf r.machine text = some (n : Int)) (hn : n < Memory.size) :
    runMem ctx armed [text] = .ok (listingReply ctx armed r.machine n 16) := by
  have hargs := memSpec_parse hdash
  have hrange : (decide ((n : Int) < 0) || decide ((Memory.size : Int) ≤ n)) = false := by
    simp only [Bool.or_eq_false_iff, decide_eq_false_iff_not]
    omega
  rw [memSpec] at hargs
  unfold runMem
  simp only [withArguments, hargs, Context.requireRunner, hr, Option.getD_some, haddress, hrange]
  rfl

theorem runMem_refusing {text : String} (hdash : text.toList.head? ≠ some '-')
    (haddress : addressOf r.machine text = none) :
    runMem ctx armed [text] = .ok (Reply.refuse ctx armed 1 s!"invalid address: {text}") := by
  have hargs := memSpec_parse hdash
  rw [memSpec] at hargs
  unfold runMem
  simp only [withArguments, hargs, Context.requireRunner, hr, Option.getD_some, haddress]

end Mem

/-- The reply to an address that is typed as a listing shows it. -/
theorem dispatch_mem {ctx : Context} {r : Runner} (hr : ctx.runner = some r)
    (hmem : ctx.Means "mem" .mem) (env : Surroundings) (armed : Option Nat) {address : Nat}
    (hlt : address < Memory.size) :
    dispatch env ctx armed ("mem " ++ Listing.number address) =
      if address = 0 ∨ 10000 ≤ address then listingReply ctx armed r.machine address 16
      else Reply.refuse ctx armed 1 s!"invalid address: {Listing.number address}" := by
  have hnumeral : Text.IsNumeral 10 address (Listing.number address).toList :=
    Text.isNumeral_zeroPadded 5 address
  have hdash : (Listing.number address).toList.head? ≠ some '-' := by
    intro hhead
    exact Listing.not_mem_number address (by decide) (List.mem_of_mem_head? hhead)
  have hline : lineCommand? ctx ("mem " ++ Listing.number address) =
      some (.mem, [Listing.number address]) := by
    have hword := @lineCommand?_word ctx "mem" (Listing.number address)
      (isTypable_of_mem_names .mem List.mem_cons_self)
      (isTypable_digits hnumeral.ne_nil hnumeral.isDigit)
    rw [hmem] at hword
    exact hword
  have haddress := addressOf_decimal r.machine hnumeral
  rw [Listing.readAuto_number] at haddress
  refine dispatch_of_command hline ?_
  rw [Command.execute]
  split
  · next hread =>
    rw [if_pos hread] at haddress
    exact runMem_listing hr hdash haddress hlt
  · next hread =>
    rw [if_neg hread] at haddress
    exact runMem_refusing hr hdash haddress

/-- **Which addresses of a listing can be typed as they are shown.** Let a session hold a program and
let `mem` keep its meaning. Every line that a listing prints, wherever it starts and however long it
is, shows an address, and `mem` with this address as it is shown there lists the memory from there on
if and only if the address is zero or has five digits of its own. Any other address has a zero in
front, and `mem` refuses it. -/
theorem listed_address_typed_back_iff (env : Surroundings) {ctx : Context} {r : Runner}
    (hr : ctx.runner = some r) (hmem : ctx.Means "mem" .mem) (armed : Option Nat)
    {typed line : String} {args : List String} (htyped : lineCommand? ctx typed = some (.mem, args))
    (hline : line ++ "\n" ∈ (dispatch env ctx armed typed).furtherTexts) :
    ∃ address < Memory.size,
      line = Listing.Entry.line (Listing.registerMarks "CD" r.machine)
        ⟨address, r.machine.memory.read address⟩ ∧
      let again := dispatch env ctx armed ("mem " ++ Listing.addressField line)
      (again = listingReply ctx armed r.machine address 16 ↔ address = 0 ∨ 10000 ≤ address) ∧
      (again = Reply.refuse ctx armed 1 s!"invalid address: {Listing.addressField line}" ↔
        0 < address ∧ address < 10000) := by
  obtain ⟨reply, hreply, hcases⟩ := @runMem_cases ctx armed r hr args
  rw [dispatch_of_command htyped hreply] at hline
  obtain ⟨start, count, rfl⟩ := hcases.resolve_right fun hnone => hnone line hline
  obtain ⟨address, hlt, rfl⟩ := mem_listingReply hline
  refine ⟨address, hlt, rfl, ?_⟩
  -- a listing has the status zero, a refusal has not
  have hdiffer : ∀ message,
      listingReply ctx armed r.machine address 16 ≠ Reply.refuse ctx armed 1 message := by
    intro message heq
    have houtcome := congrArg Reply.outcome heq
    cases houtcome
  rw [Listing.addressField_line, dispatch_mem hr hmem env armed hlt]
  dsimp only
  by_cases hread : address = 0 ∨ 10000 ≤ address
  · rw [if_pos hread]
    exact ⟨iff_of_true rfl hread, iff_of_false (hdiffer _) (by omega)⟩
  · rw [if_neg hread]
    exact ⟨iff_of_false (hdiffer _).symm hread, iff_of_true rfl (by omega)⟩

end Debugger

/-- A listing of memory without a program, of which nothing is looked at but that it is zero. -/
theorem Listing.ofMemory_empty (start count : Int) :
    ofMemory (Memory.ofImage #[]) start count = ofMemory ⟨#[]⟩ start count := by
  unfold ofMemory
  simp only [Memory.read_ofImage_behind #[] (Nat.zero_le _)]
  rfl

namespace Debugger

/-- A listing around the end of memory, typed under an alias: the address that comes after the last
one is zero, and can be typed as it is shown. -/
theorem listed_address_typed_back_iff_wrapping :
    ∃ r, r = Runner.atRest { Machine.ofImage #[] with c := 1, d := 59048 } 2 ∧
      let env : Surroundings := ⟨⟨.folder [], [], Path.ofText "", []⟩, 0⟩
      let ctx : Context := { aliases := [("dump", "mem")], runner := some r }
      let line := "   00000: 00000 0000000000  -"
      (ctx.Means "mem" .mem ∧ lineCommand? ctx "dump 59048 3" = some (.mem, ["59048", "3"]) ∧
        line ++ "\n" ∈ (dispatch env ctx none "dump 59048 3").furtherTexts) ∧
      ∃ address < Memory.size,
        line = Listing.Entry.line (Listing.registerMarks "CD" r.machine)
          ⟨address, r.machine.memory.read address⟩ ∧
        let again := dispatch env ctx none ("mem " ++ Listing.addressField line)
        (again = listingReply ctx none r.machine address 16 ↔ address = 0 ∨ 10000 ≤ address) ∧
        (again = Reply.refuse ctx none 1 s!"invalid address: {Listing.addressField line}" ↔
          0 < address ∧ address < 10000) := by
  obtain ⟨r, hr⟩ : ∃ r, r = Runner.atRest { Machine.ofImage #[] with c := 1, d := 59048 } 2 :=
    ⟨_, rfl⟩
  refine ⟨r, hr, ?_⟩
  intro env ctx line
  have hmem : ctx.Means "mem" .mem := by rfl
  have htyped : lineCommand? ctx "dump 59048 3" = some (.mem, ["59048", "3"]) := by rfl
  have hreply : dispatch env ctx none "dump 59048 3" = listingReply ctx none r.machine 59048 3 :=
    dispatch_of_command htyped rfl
  have hline : line ++ "\n" ∈ (dispatch env ctx none "dump 59048 3").furtherTexts := by
    rw [hreply, furtherTexts_listingReply, hr]
    show _ ∈ (Listing.ofMemory (Memory.ofImage #[]) _ _).map _
    rw [Listing.ofMemory_empty]
    decide +kernel
  exact ⟨⟨hmem, htyped, hline⟩, listed_address_typed_back_iff env rfl hmem none htyped hline⟩

/-- The address sixteen is shown with zeros in front, and is refused as it is shown. -/
theorem listed_address_refused :
    ∃ r, r = Runner.atRest (Machine.ofImage #[]) 2 ∧
      let env : Surroundings := ⟨⟨.folder [], [], Path.ofText "", []⟩, 0⟩
      let ctx : Context := { runner := some r }
      let line := "   00016: 00000 0000000000  -"
      ctx.Means "mem" .mem ∧ line ++ "\n" ∈ (dispatch env ctx none "mem 15 2").furtherTexts ∧
        Listing.addressField line = "00016" ∧
        (dispatch env ctx none "mem 00016").outcome = .status 1 := by
  obtain ⟨r, hr⟩ : ∃ r, r = Runner.atRest (Machine.ofImage #[]) 2 := ⟨_, rfl⟩
  refine ⟨r, hr, ?_⟩
  intro env ctx line
  have hreply : dispatch env ctx none "mem 15 2" = listingReply ctx none r.machine 15 2 :=
    @dispatch_of_command env ctx none _ .mem ["15", "2"] _ (by rfl) rfl
  have hmem : ctx.Means "mem" .mem := by rfl
  have hagain := @dispatch_mem ctx r rfl hmem env none 16 (by decide)
  refine ⟨hmem, ?_, by decide +kernel, ?_⟩
  · rw [hreply, furtherTexts_listingReply, hr]
    show _ ∈ (Listing.ofMemory (Memory.ofImage #[]) _ _).map _
    rw [Listing.ofMemory_empty]
    decide +kernel
  · rw [show "mem 00016" = "mem " ++ Listing.number 16 by decide +kernel, hagain]
    rfl

end Debugger
end Dis
