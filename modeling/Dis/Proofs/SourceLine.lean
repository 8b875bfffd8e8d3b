import Dis.Proofs.FaultFree
import Dis.Proofs.Grammar
import Dis.Proofs.TypedLines
/-!
# Program text on a line

The text behind `source` is trimmed at its end, cut into words at the separators of the splitter,
and put together again with single spaces; only then the loader sees it. Three classes of blanks
meet here, and a comment may hold any of them.

* `written_of_append_blanks`: a program text stays one without the blanks at its end.
* `written_filter_iff`: separators are nothing to the grammar, inside comments and outside.
* `written_rejoined`: the text that reaches the loader has the commands of the text that was typed.
* `dispatch_source`: a line with program text loads it.
* `struckAfter_sameOrigin`: lines that bring in no other program leave what `restart` goes back to.
* `source_line_loads_text`: both together, for every text that can be typed.
* `source_line_limits`: where the line, or a later `restart`, is taken for something else.
-/
namespace Dis

/-! ## Blanks at the end of a text -/

namespace Text

/-- What is trimmed from the right is blank. -/
theorem exists_trimRight_append (cs : List Char) :
    ∃ bs, cs = trimRight cs ++ bs ∧ ∀ c ∈ bs, isBlank c = true := by
  refine ⟨(cs.reverse.takeWhile isBlank).reverse, ?_, ?_⟩
  · rw [trimRight, ← List.reverse_append, List.takeWhile_append_dropWhile, List.reverse_reverse]
  · intro c hc
    exact List.all_eq_true.1 List.all_takeWhile c (List.mem_reverse.1 hc)

/-- A text that is not blank has a character that trimming leaves, and that ends no word. -/
theorem exists_mem_trimRight {cs : List Char} (h : trim cs ≠ []) :
    ∃ c ∈ trimRight cs, ShellWords.isSeparator c = false := by
  obtain ⟨c, hc⟩ := Option.ne_none_iff_exists'.1 fun hnone => h (List.head?_eq_none_iff.1 hnone)
  have hblank := (trim_trimmed cs).first c hc
  refine ⟨c, ?_, ?_⟩
  · obtain ⟨bs, hcs, hbs⟩ := exists_trimRight_append cs
    have hmem := mem_of_mem_trim (List.mem_of_mem_head? hc)
    rw [hcs, List.mem_append] at hmem
    refine hmem.resolve_right fun hbehind => ?_
    rw [hbs c hbehind] at hblank
    cases hblank
  · rw [← Bool.not_eq_true]
    intro hsep
    rw [isBlank_of_isSeparator hsep] at hblank
    cases hblank

end Text

namespace Program

open Text (isBlank trimRight)
open Text.ShellWords (isSeparator words)

theorem not_isBlank_command {c : Char} (h : c ∈ commandChars) : isBlank c = false := by
  have hall : commandChars.all (!isBlank ·) = true := by decide +kernel
  simpa using List.all_eq_true.1 hall c h

theorem written_blanks {bs cmds : List Char} (hbs : ∀ c ∈ bs, isBlank c = true)
    (h : Written bs cmds) : cmds = [] := by
  induction bs with
  | nil => exact (written_nil_iff cmds).1 h
  | cons c bs ih =>
    have hc := hbs c List.mem_cons_self
    rcases (written_cons_iff c bs cmds).1 h with ⟨-, h⟩ | ⟨hcmd, -⟩ | ⟨rfl, -⟩
    · exact ih (fun c' hc' => hbs c' (List.mem_cons_of_mem c hc')) h
    · rw [not_isBlank_command hcmd] at hc
      cases hc
    · exact absurd hc (by decide)

/-- Blanks at the end can be left out, of a text that begins outside a comment and of one that
begins inside. -/
theorem written_of_append_blanks {bs : List Char} (hbs : ∀ c ∈ bs, isBlank c = true)
    (s : List Char) :
    (∀ cmds, Written (s ++ bs) cmds → Written s cmds) ∧
      ∀ cmds, WrittenInComment (s ++ bs) cmds → WrittenInComment s cmds := by
  induction s with
  | nil =>
    refine ⟨fun cmds h => (written_nil_iff cmds).2 (written_blanks hbs h), fun cmds h => ?_⟩
    -- the comment would have to close among the blanks
    obtain ⟨body, rest, -, hclose, -⟩ := h
    have hmem : ')' ∈ bs := by
      rw [show bs = body ++ ')' :: rest from hclose]
      simp
    exact absurd (hbs ')' hmem) (by decide)
  | cons c s ih =>
    obtain ⟨houtside, hinside⟩ := ih
    constructor
    · intro cmds h
      rw [List.cons_append, written_cons_iff] at h
      rw [written_cons_iff]
      rcases h with ⟨hc, h⟩ | ⟨hc, rest, rfl, h⟩ | ⟨hc, h⟩
      · exact .inl ⟨hc, houtside cmds h⟩
      · exact .inr (.inl ⟨hc, rest, rfl, houtside rest h⟩)
      · exact .inr (.inr ⟨hc, hinside cmds h⟩)
    · intro cmds h
      rw [List.cons_append] at h
      by_cases hc : c = ')'
      · subst hc
        rw [writtenInComment_close_iff] at h ⊢
        exact houtside cmds h
      · rw [writtenInComment_cons_iff hc] at h ⊢
        exact hinside cmds h

/-! ## Separators -/

theorem isSeparator_blank {c : Char} (h : isSeparator c = true) :
    c.toNat ∈ blankCodes ∧ c ≠ ')' := by
  simp only [isSeparator, Bool.or_eq_true, decide_eq_true_eq] at h
  rcases h with ((rfl | rfl) | rfl) | rfl <;> decide

/-- Separators can be taken out and put in, inside comments and outside. -/
theorem written_filter_iff (s : List Char) :
    (∀ cmds, Written (s.filter (!isSeparator ·)) cmds ↔ Written s cmds) ∧
      ∀ cmds, WrittenInComment (s.filter (!isSeparator ·)) cmds ↔ WrittenInComment s cmds := by
  induction s with
  | nil => exact ⟨fun cmds => .rfl, fun cmds => .rfl⟩
  | cons c s ih =>
    obtain ⟨houtside, hinside⟩ := ih
    cases hsep : isSeparator c with
    | true =>
      obtain ⟨hblank, hclose⟩ := isSeparator_blank hsep
      rw [List.filter_cons_of_neg (by simp [hsep])]
      constructor
      · intro cmds
        rw [written_blank_iff hblank, houtside]
      · intro cmds
        rw [writtenInComment_cons_iff hclose, hinside]
    | false =>
      rw [List.filter_cons_of_pos (by simp [hsep])]
      constructor
      · intro cmds
        rw [written_cons_iff, written_cons_iff, houtside, hinside]
        simp only [houtside]
      · intro cmds
        by_cases hc : c = ')'
        · subst hc
          rw [writtenInComment_close_iff, writtenInComment_close_iff, houtside]
        · rw [writtenInComment_cons_iff hc, writtenInComment_cons_iff hc, hinside]

/-- A text trimmed at its end, cut into words and put together with spaces keeps its commands. -/
theorem written_rejoined {s cmds : List Char} (h : Written s cmds) :
    Written ([' '].intercalate (words (trimRight s))) cmds := by
  obtain ⟨bs, hs, hbs⟩ := Text.exists_trimRight_append s
  rw [hs] at h
  have htrimmed := (written_of_append_blanks hbs _).1 cmds h
  have hspace : ∀ c ∈ [' '], isSeparator c = true := by
    intro c hc
    rw [List.mem_singleton.1 hc]
    decide
  rw [← (written_filter_iff _).1, Text.ShellWords.filter_intercalate hspace
    fun w hw => Text.ShellWords.not_isSeparator_of_mem_words hw, Text.ShellWords.flatten_words,
    (written_filter_iff _).1]
  exact htrimmed

theorem parse_rejoined {s : List Char} {image : Array Nat} (h : parse s = .ok image) :
    parse ([' '].intercalate (words (trimRight s))) = .ok image := by
  obtain ⟨cmds, hwritten, himage, hlength⟩ := (parse_eq_ok_iff _ _).1 h
  exact (parse_eq_ok_iff _ _).2 ⟨cmds, written_rejoined hwritten, himage, hlength⟩

end Program
/-! ## The line -/

namespace Debugger

open Text (trim trimRight)
open Text.ShellWords (isPlain words)

variable {env : Surroundings} {ctx : Context} {armed : Option Nat}

theorem runSource_of_parse {args : List String} {image : Array Nat} (hargs : args ≠ [])
    (hparse : Program.parse (" ".intercalate args).toList = .ok image) (hbatch : 1 ≤ ctx.batch) :
    ∃ events, runSource ctx armed args =
      .ok ⟨ctx.withProgram (" ".intercalate args) none (.ofImage image), armed, .status 0,
        events⟩ := by
  have hload := (Program.load_eq_ok_iff _ _).2 ⟨image, hparse, rfl⟩
  obtain ⟨events, hevents⟩ := loadSource_of_load hload hbatch none
  unfold runSource
  rw [if_neg (by simpa using hargs), hevents]
  exact ⟨_, rfl⟩

/-- A line with program text behind `source` loads the text. -/
theorem dispatch_source {text : String} {image : Array Nat}
    (hparse : Program.parse text.toList = .ok image) (hblank : trim text.toList ≠ [])
    (hplain : ∀ c ∈ text.toList, isPlain c = true)
    (hmark : ∀ w, (words (trimRight text.toList)).getLast? = some w → ¬ parseErrorMark.toList <+: w)
    (hbatch : 1 ≤ ctx.batch) (hmeans : ctx.Means "source" .source) :
    ∃ source events, Program.parse source.toList = .ok image ∧
      dispatch env ctx armed ("source " ++ text) =
        ⟨ctx.withProgram source none (.ofImage image), armed, .status 0, events⟩ := by
  let args := (words (trimRight text.toList)).map String.ofList
  have hargs : args ≠ [] := by
    obtain ⟨c, hc, hsep⟩ := Text.exists_mem_trimRight hblank
    intro hnil
    have hnone : words (trimRight text.toList) = [] := List.map_eq_nil_iff.1 hnil
    have hgone := Text.ShellWords.flatten_words (trimRight text.toList)
    rw [hnone] at hgone
    have hmem : c ∈ (trimRight text.toList).filter (!Text.ShellWords.isSeparator ·) :=
      List.mem_filter.2 ⟨hc, by simp [hsep]⟩
    rw [← hgone] at hmem
    cases hmem
  have hjoined : (" ".intercalate args).toList =
      [' '].intercalate (words (trimRight text.toList)) := by
    rw [String.toList_intercalate, List.map_map]
    simp
  have hsource : Program.parse (" ".intercalate args).toList = .ok image := by
    rw [hjoined]
    exact Program.parse_rejoined hparse
  have hline : lineCommand? ctx ("source " ++ text) = some (.source, args) := by
    have htyped := @lineCommand?_typed ctx "source"
      (isTypable_of_mem_names .source List.mem_cons_self) text hplain hmark
    rwa [hmeans] at htyped
  obtain ⟨events, hreply⟩ := @runSource_of_parse ctx armed args image hargs hsource hbatch
  exact ⟨_, events, hsource, dispatch_of_command hline hreply⟩

/-! ## Going back to the text -/

/-- What `restart` goes back to is the same in two sessions. -/
structure Context.SameOrigin (ctx ctx' : Context) : Prop where
  source : ctx'.source = ctx.source
  sourcePath : ctx'.sourcePath = ctx.sourcePath
  batch : ctx'.batch = ctx.batch

theorem Context.SameOrigin.refl (ctx : Context) : ctx.SameOrigin ctx := ⟨rfl, rfl, rfl⟩

theorem Context.SameOrigin.trans {ctx ctx' ctx'' : Context} (h : ctx.SameOrigin ctx')
    (h' : ctx'.SameOrigin ctx'') : ctx.SameOrigin ctx'' :=
  ⟨h'.source.trans h.source, h'.sourcePath.trans h.sourcePath, h'.batch.trans h.batch⟩

/-- A line that brings in a program; `restart` is none, it goes back to the one that is there. -/
def lineLoads (ctx : Context) (line : String) : Bool :=
  match lineCommand? ctx line with
  | some (.load, _) => true
  | some (.source, _) => true
  | _ => false

/-- No line brings in a program, in the session that it finds. -/
def noneLoads : Context → List StruckTurn → Bool
  | _, [] => true
  | ctx, t :: turns => !lineLoads ctx t.line && noneLoads (t.reply ctx).context turns

theorem runRestart_sameOrigin {reply : Reply} (h : runRestart ctx armed = .ok reply) :
    ctx.SameOrigin reply.context := by
  unfold runRestart Context.restart at h
  split at h
  · next hload =>
    split at hload
    · cases hload
    · next source hsource =>
      obtain ⟨m, r, -, -, rfl⟩ := loadSource_eq_ok hload
      cases h
      exact ⟨hsource.symm, rfl, rfl⟩
  · cases h
    exact .refl ctx
  · cases h

theorem Answered.sameOrigin {args : List String} {c : Command} {reply : Reply}
    (h : Answered env ctx armed args c reply)
    (hc : c ≠ .load ∧ c ≠ .source ∧ c ≠ .restart) : ctx.SameOrigin reply.context := by
  obtain ⟨hload, hsource, hrestart⟩ := hc
  cases h with
  | loaded hcommand =>
    rcases hcommand with rfl | rfl | rfl
    · exact absurd rfl hload
    · exact absurd rfl hsource
    · exact absurd rfl hrestart
  | aliased hchange =>
    rw [(changeAliases_eq_ok hchange).1]
    exact ⟨rfl, rfl, rfl⟩
  | _ => exact ⟨rfl, rfl, rfl⟩

theorem reply_sameOrigin (t : StruckTurn) (hloads : lineLoads ctx t.line = false) :
    ctx.SameOrigin (t.reply ctx).context := by
  rcases t.reply_cases ctx with ⟨c, args, hline, hanswer⟩ | ⟨n, events, -, hreply⟩
  · have hload : c ≠ .load := by
      rintro rfl
      simp [lineLoads, hline] at hloads
    have hsource : c ≠ .source := by
      rintro rfl
      simp [lineLoads, hline] at hloads
    by_cases hrestart : c = .restart
    · -- that the text loads is not enough here, it has to be the text of the session
      subst hrestart
      have hplain : t.reply ctx = dispatch t.env ctx t.armed t.line := by
        unfold StruckTurn.reply
        rw [hline]
        rfl
      rw [hplain]
      rcases dispatch_cases t.env ctx t.armed t.line with
        ⟨c, args', reply, hline', hreply, hdispatch⟩ | ⟨n, events, -, hdispatch, -⟩
      · rw [hline] at hline'
        cases hline'
        rw [hdispatch]
        exact runRestart_sameOrigin hreply
      · rw [hdispatch]
        exact .refl ctx
    · exact hanswer.sameOrigin ⟨hload, hsource, hrestart⟩
  · rw [hreply]
    exact .refl ctx

theorem struckAfter_sameOrigin (turns : List StruckTurn) (h : noneLoads ctx turns = true) :
    ctx.SameOrigin (struckAfter ctx turns) := by
  induction turns generalizing ctx with
  | nil => exact .refl ctx
  | cons t turns ih =>
    obtain ⟨hline, hrest⟩ := Bool.and_eq_true_iff.1 h
    rw [struckAfter_cons]
    exact (reply_sameOrigin t (by simpa using hline)).trans (ih hrest)

theorem dispatch_restart {source : String} {image : Array Nat} (hsource : ctx.source = some source)
    (hparse : Program.parse source.toList = .ok image) (hbatch : 1 ≤ ctx.batch)
    (hmeans : ctx.Means "restart" .restart) :
    ∃ events, dispatch env ctx armed "restart" =
      ⟨ctx.withProgram source ctx.sourcePath (.ofImage image), armed, .status 0, events⟩ := by
  have hload := (Program.load_eq_ok_iff _ _).2 ⟨image, hparse, rfl⟩
  obtain ⟨events, hevents⟩ := loadSource_of_load hload hbatch ctx.sourcePath
  have hrestart : ctx.restart =
      .ok (ctx.withProgram source ctx.sourcePath (.ofImage image), events) := by
    unfold Context.restart
    rw [hsource]
    exact hevents
  have hreply : Command.restart.execute env ctx armed [] =
      .ok (loadedReply (ctx.withProgram source ctx.sourcePath (.ofImage image)) armed events
        (ctx.withProgram source ctx.sourcePath (.ofImage image)).origin) := by
    rw [Command.execute, runRestart, hrestart]
  have hline : lineCommand? ctx "restart" = some (.restart, []) := by
    have hbare := @lineCommand?_bare ctx "restart"
      (isTypable_of_mem_names .restart List.mem_cons_self)
    rwa [hmeans] at hbare
  exact ⟨_, dispatch_of_command hline hreply⟩

/-- A program was loaded: a machine fresh from the image, under a runner that has done nothing. -/
structure Reply.Loaded (reply : Reply) (image : Array Nat) (batch : Int) : Prop where
  outcome : reply.outcome = .status 0
  runner : reply.context.runner = some (.atRest (.ofImage image) batch.toNat)

/-- **A line loads the program text on it.** Take a text that the loader accepts and that is not
blank, without quotes and backslashes, and whose last word, once the blanks at its end are trimmed,
is no mark of a line that cannot be cut. A line with `source` and the text, in a session in which
`source` keeps its meaning, loads the image of the text into a fresh machine. So does `restart`
afterwards, where it keeps its meaning, whatever lines come in between that bring in no other
program. -/
theorem source_line_loads_text {text : String} {image : Array Nat}
    (hparse : Program.parse text.toList = .ok image) (hblank : trim text.toList ≠ [])
    (hplain : ∀ c ∈ text.toList, isPlain c = true)
    (hmark : ∀ w, (words (trimRight text.toList)).getLast? = some w → ¬ parseErrorMark.toList <+: w)
    {ctx : Context} (hbatch : 1 ≤ ctx.batch) (hmeans : ctx.Means "source" .source)
    (env : Surroundings) (armed : Option Nat) :
    let reply := dispatch env ctx armed ("source " ++ text)
    reply.Loaded image ctx.batch ∧
      ∀ turns, noneLoads reply.context turns = true →
        ∀ later, struckAfter reply.context turns = later → later.Means "restart" .restart →
          ∀ env' armed', (dispatch env' later armed' "restart").Loaded image ctx.batch := by
  obtain ⟨source, events, hsource, hreply⟩ :=
    @dispatch_source env ctx armed text image hparse hblank hplain hmark hbatch hmeans
  intro reply
  have hreply : reply = ⟨ctx.withProgram source none (.ofImage image), armed, .status 0, events⟩ :=
    hreply
  rw [hreply]
  refine ⟨⟨rfl, rfl⟩, fun turns hturns later hlater hrestart env' armed' => ?_⟩
  have horigin := struckAfter_sameOrigin turns hturns
  rw [hlater] at horigin
  have hbatch' : later.batch = ctx.batch := horigin.batch
  obtain ⟨events', hagain⟩ := @dispatch_restart env' later armed' source image horigin.source
    hsource (by rw [hbatch']; exact hbatch) hrestart
  rw [hagain]
  refine ⟨rfl, ?_⟩
  show some (Runner.atRest _ later.batch.toNat) = _
  rw [hbatch']

/-- A comment with a tab in it, a vertical tab that is part of a word and one that is trimmed, a
byte-order mark and two commands; then an alias for `restart`, and `restart`. -/
theorem source_line_loads_text_commented :
    let text := "(a\tb)\x0b_ \uFEFF\x7d \x0b"
    let env : Surroundings := ⟨⟨.folder [], [], Path.ofText "", []⟩, 0⟩
    let ctx : Context := { batch := 3, aliases := [("p", "source")] }
    let reply := dispatch env ctx none ("source " ++ text)
    let turns : List StruckTurn := [⟨⟨env, none, "alias again restart"⟩, []⟩]
    Program.parse text.toList = .ok #[95, 125] ∧ reply.Loaded #[95, 125] 3 ∧
      (dispatch env (struckAfter reply.context turns) none "restart").Loaded #[95, 125] 3 := by
  intro text env ctx reply turns
  have hchars : text.toList = '(' :: (['a', '\t', 'b'] ++
      ')' :: ['\x0b', '_', ' ', '\uFEFF', '\x7d', ' ', '\x0b']) := by decide +kernel
  have hparse : Program.parse text.toList = .ok #[95, 125] := by
    refine (Program.parse_eq_ok_iff _ _).2 ⟨['_', '\x7d'], ?_, rfl, by decide⟩
    rw [hchars]
    exact .comment (by decide) (.blank (by decide) (.command (by decide) (.blank (by decide)
      (.blank (by decide) (.command (by decide) (.blank (by decide) (.blank (by decide) .nil)))))))
  have hplain : text.toList.all isPlain = true := by decide +kernel
  have hlast : (words (trimRight text.toList)).getLast? = some ['\uFEFF', '\x7d'] := by
    decide +kernel
  obtain ⟨hloaded, hagain⟩ := source_line_loads_text hparse (by decide +kernel)
    (List.all_eq_true.1 hplain) (fun w hw => by
      rw [hlast] at hw
      cases hw
      decide +kernel)
    (show 1 ≤ ctx.batch by decide) (by decide +kernel) env none
  exact ⟨hparse, hloaded, hagain turns (by decide +kernel) _ rfl (by decide +kernel) env none⟩

/-- The last word of `( #parse-error)` with a space and a vertical tab behind it is the vertical
tab, but that is trimmed, and the word before it is taken for the mark of a line that cannot be cut.
And where `restart` is an alias for something else, it does not load the program again. -/
theorem source_line_limits :
    let env : Surroundings := ⟨⟨.folder [], [], Path.ofText "", []⟩, 0⟩
    let text := "( #parse-error) \x0b"
    let ctx := Context.setAlias {} "restart" "pause"
    (Program.parse text.toList = .ok #[] ∧ trim text.toList ≠ [] ∧ text.toList.all isPlain = true ∧
      (words text.toList).getLast? = some ['\x0b'] ∧
      (dispatch env {} none ("source " ++ text)).outcome = .status 1) ∧
    (dispatch env ctx none "source _").outcome = .status 0 ∧
      (dispatch env (dispatch env ctx none "source _").context none "restart").outcome =
        .status 1 := by
  intro env text ctx
  have hchars : text.toList = '(' :: (" #parse-error".toList ++ ')' :: [' ', '\x0b']) := by
    decide +kernel
  have hparse : Program.parse text.toList = .ok #[] := by
    refine (Program.parse_eq_ok_iff _ _).2 ⟨[], ?_, rfl, Nat.zero_le _⟩
    rw [hchars]
    exact .comment (by decide +kernel) (.blank (by decide) (.blank (by decide) .nil))
  exact ⟨⟨hparse, by decide +kernel, by decide +kernel, by decide +kernel, by decide +kernel⟩,
    by decide +kernel, by decide +kernel⟩

end Debugger
end Dis
