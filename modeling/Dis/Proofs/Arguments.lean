import Dis.Options
/-!
# What a command line preserves

Switches and slots write to a record one after the other. A property that each of them keeps is
kept by the whole command line, whatever the arguments are and in whatever order they come.

* `Spec.classifyAll_known`: the switches found in the arguments are switches of the description.
* `State.takeAll_keeps`, `fillSlots_keeps`, `Spec.consume_keeps`: one switch, one run of arguments
  and the whole line keep the property.
* `Spec.parse_keeps`: so it holds of every record that `Spec.parse` gives.
-/
namespace Dis.Options

variable {σ : Type} {P : σ → Prop} {spec : Spec σ}

/-- A switch that takes effect keeps the property. -/
def Effect.Keeps (P : σ → Prop) : Effect σ → Prop
  | .help => True
  | .mark set => ∀ s, P s → P (set s)
  | .value take drop => (∀ text s s', take text s = .ok s' → P s → P s') ∧ ∀ s, P s → P (drop s)

def Slot.Keeps (P : σ → Prop) (slot : Slot σ) : Prop :=
  ∀ text s s', slot.take text s = .ok s' → P s → P s'

structure Spec.Keeps (P : σ → Prop) (spec : Spec σ) : Prop where
  switches : ∀ sw ∈ spec.switches, sw.effect.Keeps P
  slots : ∀ slot ∈ spec.slots, slot.Keeps P

/-- The record has the property, and the slots still open keep it. -/
structure State.Keeps (P : σ → Prop) (s : State σ) : Prop where
  record : P s.record
  slots : ∀ slot ∈ s.slots, slot.Keeps P

/-! ## Classification -/

/-- A token that is no switch, an unknown one, or one of the description. -/
def Token.Known (spec : Spec σ) (t : Token σ) : Prop :=
  ∀ sw name joined text, t = .switch (some sw) name joined text → sw ∈ spec.switches

theorem Spec.mem_of_named {p : String × Switch σ} (h : p ∈ spec.named) : p.2 ∈ spec.switches := by
  simp only [Spec.named, List.mem_flatMap, List.mem_map] at h
  obtain ⟨sw, hsw, name, -, rfl⟩ := h
  exact hsw

theorem Spec.mem_of_find? {name : String} {sw : Switch σ} (h : spec.find? name = some sw) :
    sw ∈ spec.switches := by
  obtain ⟨p, hp, rfl⟩ := Option.map_eq_some_iff.1 h
  exact mem_of_named (List.mem_of_find?_eq_some hp)

theorem Spec.mem_of_candidates {text : String} {c : String × Switch σ × Option String}
    (h : c ∈ spec.candidates text) : c.2.1 ∈ spec.switches := by
  unfold Spec.candidates at h
  split at h
  · obtain ⟨p, hp, rfl⟩ := List.mem_map.1 h
    exact mem_of_named (List.mem_filter.1 hp).1
  · obtain ⟨p, hp, hc⟩ := List.mem_filterMap.1 h
    have hmem := mem_of_named hp
    dsimp only at hc
    split at hc
    · cases hc; exact hmem
    · split at hc
      · cases hc; exact hmem
      · cases hc
  · cases h

theorem Token.known_plain (text : String) : Token.Known spec (.plain text) := by
  intro sw name joined text h; cases h

theorem Token.known_dashes : Token.Known spec .dashes := by
  intro sw name joined text h; cases h

theorem Token.known_switch {sw : Switch σ} (h : sw ∈ spec.switches) (name : String)
    (joined : Option String) (text : String) :
    Token.Known spec (.switch (some sw) name joined text) := by
  intro sw' name' joined' text' heq
  cases heq
  exact h

theorem Spec.classify_known {text : String} {t : Token σ} (h : spec.classify text = .ok t) :
    t.Known spec := by
  unfold Spec.classify at h
  split at h
  · cases h; exact Token.known_plain _
  · split at h
    · cases h; exact Token.known_plain _
    · split at h
      · next hfind => cases h; exact Token.known_switch (mem_of_find? hfind) _ _ _
      · split at h
        · cases h; exact Token.known_plain _
        · dsimp only at h
          split at h
          · next hfind => cases h; exact Token.known_switch (mem_of_find? hfind) _ _ _
          · split at h
            · next name sw joined hone =>
              cases h
              have hmem : (name, sw, joined) ∈ spec.candidates text := by rw [hone]; simp
              exact Token.known_switch (mem_of_candidates hmem) _ _ _
            · split at h
              · cases h; exact Token.known_plain _
              · cases h
                intro sw name joined text heq
                cases heq
            · cases h

theorem Spec.classifyAll_known {args : List String} {tokens : List (Token σ)}
    (h : spec.classifyAll args = .ok tokens) : ∀ t ∈ tokens, t.Known spec := by
  induction args generalizing tokens with
  | nil => cases h; simp
  | cons text rest ih =>
    unfold Spec.classifyAll at h
    split at h
    · cases h
      intro t ht
      rcases List.mem_cons.1 ht with rfl | ht
      · exact Token.known_dashes
      · obtain ⟨text, -, rfl⟩ := List.mem_map.1 ht
        exact Token.known_plain text
    · cases htoken : spec.classify text with
      | error why => rw [htoken] at h; cases h
      | ok token =>
        cases hrest : spec.classifyAll rest with
        | error why => rw [htoken, hrest] at h; cases h
        | ok others =>
          rw [htoken, hrest] at h
          cases h
          intro t ht
          rcases List.mem_cons.1 ht with rfl | ht
          · exact classify_known htoken
          · exact ih hrest t ht

/-! ## Switches -/

theorem State.take_keeps {s s' : State σ} {taken : Taken σ} (hsw : taken.1.effect.Keeps P)
    (hs : s.Keeps P) (h : s.take taken = .ok s') : s'.Keeps P := by
  obtain ⟨⟨names, effect, rivals⟩, value⟩ := taken
  simp only [State.take] at h
  cases effect with
  | help => cases h
  | mark set => cases h; exact ⟨hsw _ hs.record, hs.slots⟩
  | value take drop =>
    dsimp only at h
    split at h
    · cases h
    · next record hrecord =>
      split at h
      · cases h
      · cases h
        refine ⟨?_, hs.slots⟩
        unfold takeOrDrop at hrecord
        split at hrecord
        · cases hrecord; exact hsw.2 _ hs.record
        · exact hsw.1 _ _ _ hrecord hs.record

theorem State.takeAll_keeps {s s' : State σ} {taken : List (Taken σ)}
    (hsw : ∀ t ∈ taken, t.1.effect.Keeps P) (hs : s.Keeps P) (h : s.takeAll taken = .ok s') :
    s'.Keeps P := by
  induction taken generalizing s with
  | nil => cases h; exact hs
  | cons t rest ih =>
    unfold State.takeAll at h
    cases ht : s.take t with
    | error stop => rw [ht] at h; cases h
    | ok s₁ =>
      rw [ht] at h
      exact ih (fun t' ht' => hsw t' (List.mem_cons_of_mem t ht'))
        (State.take_keeps (hsw t (List.mem_cons_self ..)) hs ht) h

/-- The switches of a cluster, and the one that waits for a value, are of the description. -/
theorem Spec.cluster_mem {sw : Switch σ} {name : String} {done : List (Taken σ)}
    {joined : List Char} {taken : List (Taken σ)} {needy : Option (Switch σ)}
    (hsw : sw ∈ spec.switches) (hdone : ∀ t ∈ done, t.1 ∈ spec.switches)
    (h : spec.cluster sw name done joined = .ok (taken, needy)) :
    (∀ t ∈ taken, t.1 ∈ spec.switches) ∧ ∀ sw' ∈ needy, sw' ∈ spec.switches := by
  have hadd : ∀ {sw' : Switch σ} {value : Option String} {done : List (Taken σ)},
      sw' ∈ spec.switches → (∀ t ∈ done, t.1 ∈ spec.switches) →
      ∀ t ∈ (sw', value) :: done, t.1 ∈ spec.switches := by
    intro sw' value done hsw' hdone' t ht
    rcases List.mem_cons.1 ht with rfl | ht
    · exact hsw'
    · exact hdone' t ht
  induction joined generalizing sw name done with
  | nil =>
    unfold Spec.cluster at h
    split at h
    · cases h
      exact ⟨fun t ht => hadd hsw hdone t (List.mem_reverse.1 ht), by simp⟩
    · cases h
  | cons c cs ih =>
    unfold Spec.cluster at h
    split at h
    · cases h
      exact ⟨fun t ht => hadd hsw hdone t (List.mem_reverse.1 ht), by simp⟩
    · split at h
      · cases h
      · dsimp only at h
        split at h
        · cases h
        · next sw' hfind =>
          have hsw' := mem_of_find? hfind
          have hdone' : ∀ t ∈ (sw, none) :: done, t.1 ∈ spec.switches := hadd hsw hdone
          split at h
          · split at h
            · cases h
              exact ⟨fun t ht => hdone' t (List.mem_reverse.1 ht), by simpa using hsw'⟩
            · cases h
              exact ⟨fun t ht => hadd hsw' hdone' t (List.mem_reverse.1 ht), by simp⟩
          · exact ih hsw' hdone' h

theorem Spec.expand_mem {sw : Switch σ} {name : String} {joined : Option String}
    {taken : List (Taken σ)} {needy : Option (Switch σ)} (hsw : sw ∈ spec.switches)
    (h : spec.expand sw name joined = .ok (taken, needy)) :
    (∀ t ∈ taken, t.1 ∈ spec.switches) ∧ ∀ sw' ∈ needy, sw' ∈ spec.switches := by
  unfold Spec.expand at h
  split at h
  · exact cluster_mem hsw (by simp) h
  · split at h
    · cases h
      exact ⟨by simp, by simpa using hsw⟩
    · cases h
      exact ⟨by simpa using hsw, by simp⟩

/-! ## Slots -/

theorem fillSlots_keeps {s s' : State σ} {run rest : List (Token σ)} {slots : List (Slot σ)}
    (hrecord : P s.record) (hslots : ∀ slot ∈ slots, slot.Keeps P)
    (h : fillSlots s run slots = .ok (s', rest)) : s'.Keeps P := by
  induction slots generalizing s run with
  | nil => cases h; exact ⟨hrecord, by simp⟩
  | cons slot slots ih =>
    have hothers : ∀ slot' ∈ slots, slot'.Keeps P :=
      fun slot' hmem => hslots slot' (List.mem_cons_of_mem slot hmem)
    unfold fillSlots at h
    split at h
    · cases h; exact ⟨hrecord, hslots⟩
    · exact ih hrecord hothers h
    · split at h
      · cases h
      · next record htake =>
        have hnew : P record := hslots slot (List.mem_cons_self ..) _ _ _ htake hrecord
        exact ih hnew hothers h

theorem State.consumeRun_keeps {s s' : State σ} {run : List (Token σ)} (hs : s.Keeps P)
    (h : s.consumeRun run = .ok s') : s'.Keeps P := by
  unfold State.consumeRun at h
  split at h
  · cases h
  · next s₁ rest hfill =>
    cases h
    have hkeeps := fillSlots_keeps hs.record hs.slots hfill
    exact ⟨hkeeps.record, hkeeps.slots⟩

/-- The arguments waiting in front of a switch are consumed, if there are any. -/
theorem State.flush_keeps {s s' : State σ} {run : List (Token σ)} (hs : s.Keeps P)
    (h : (if run.isEmpty then .ok s else s.consumeRun run.reverse) = Except.ok s') :
    s'.Keeps P := by
  split at h
  · cases h; exact hs
  · exact State.consumeRun_keeps hs h

/-! ## The whole line -/

theorem Spec.consume_keeps {s s' : State σ} {run tokens : List (Token σ)} (hspec : spec.Keeps P)
    (htokens : ∀ t ∈ tokens, t.Known spec) (hs : s.Keeps P)
    (h : spec.consume s run tokens = .ok s') : s'.Keeps P := by
  -- the cases are those of `consume`; where it breaks off there is no state to speak of
  fun_induction Spec.consume spec s run tokens with
  | case1 s run => exact State.consumeRun_keeps hs h
  | case2 | case4 | case5 | case7 | case9 => cases h
  | case3 s run name joined text rest s₁ hflush ih =>
    have hs₁ := State.flush_keeps hs hflush
    exact ih (fun t ht => htokens t (List.mem_cons_of_mem _ ht)) ⟨hs₁.record, hs₁.slots⟩ h
  | case6 s run name joined text rest s₁ hflush sw taken hexpand s₂ htake ih =>
    have hsw : sw ∈ spec.switches := htokens _ (List.mem_cons_self ..) _ _ _ _ rfl
    have htaken := (expand_mem hsw hexpand).1
    have hs₂ : s₂.Keeps P := State.takeAll_keeps (fun t ht => hspec.switches _ (htaken t ht))
      (State.flush_keeps hs hflush) htake
    exact ih (fun t ht => htokens t (List.mem_cons_of_mem _ ht)) hs₂ h
  | case8 s run name joined text s₁ hflush sw taken needy hexpand value rest s₂ htake ih =>
    have hsw : sw ∈ spec.switches := htokens _ (List.mem_cons_self ..) _ _ _ _ rfl
    obtain ⟨htaken, hneedy⟩ := expand_mem hsw hexpand
    have hall : ∀ t ∈ taken ++ [(needy, some value)], t.1.effect.Keeps P := by
      intro t ht
      rcases List.mem_append.1 ht with ht | ht
      · exact hspec.switches _ (htaken t ht)
      · rw [List.mem_singleton.1 ht]
        exact hspec.switches _ (hneedy needy rfl)
    have hs₂ : s₂.Keeps P := State.takeAll_keeps hall (State.flush_keeps hs hflush) htake
    exact ih (fun t ht => htokens t (List.mem_cons_of_mem _ (List.mem_cons_of_mem _ ht))) hs₂ h
  | case10 s run token rest _ ih =>
    exact ih (fun t ht => htokens t (List.mem_cons_of_mem _ ht)) hs h

theorem Spec.parse_keeps {start s : σ} {args : List String} (hspec : spec.Keeps P) (hstart : P start)
    (h : spec.parse start args = .parsed s) : P s := by
  unfold Spec.parse at h
  split at h
  · cases h
  · next tokens htokens =>
    split at h
    · cases h
    · cases h
    · next s₁ hconsume =>
      have hkeeps := consume_keeps hspec (classifyAll_known htokens) ⟨hstart, hspec.slots⟩ hconsume
      dsimp only at h
      split at h
      · cases h
      · split at h
        · cases h
        · cases h; exact hkeeps.record

end Dis.Options
