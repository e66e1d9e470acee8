import Mathlib.Data.List.TakeWhile
import Sentinel.Monitoring.Offline

/-!
# The cap is absolute

A slot that was taken is in the window, or it has expired, or the window is full of slots that are not older. A submission is
let through only if a slot of the window is free, so every slot of the last hour is in the window then.
-/

namespace Sentinel.Monitoring.Offline

open Monitor

variable {settings : Settings} {clock now : ℚ} {taken sent : List Slot} {m : Monitor}

/-! ## The window -/

/-- The window against the slots that were taken. -/
structure Window (limit : Nat) (clock : ℚ) (taken sent : List Slot) : Prop where
  sorted : sent.Pairwise fun a b => a.1 ≤ b.1
  past : ∀ slot ∈ sent, slot.1 ≤ clock
  kept : ∀ slot ∈ taken, slot ∈ sent ∨ slot.1 + hourSeconds ≤ clock ∨ limit ≤ sent.length ∧ ∀ x ∈ sent, slot.1 ≤ x.1

variable {limit : Nat}

theorem Window.mono (h : Window limit clock taken sent) (hle : clock ≤ now) : Window limit now taken sent := by
  refine ⟨h.sorted, fun slot hs => (h.past slot hs).trans hle, ?_⟩
  intro slot hs
  rcases h.kept slot hs with hkept | hexpired | hfull
  · exact .inl hkept
  · exact .inr (.inl (hexpired.trans hle))
  · exact .inr (.inr hfull)

theorem Window.expire (h : Window limit now taken sent) :
    Window limit now taken (expire now sent) ∧ ((Offline.expire now sent).length < limit →
      ∀ slot ∈ taken, slot ∈ Offline.expire now sent ∨ slot.1 + hourSeconds ≤ now) := by
  have hsplit : sent.takeWhile (fun slot => ¬(slot.1 ≤ now ∧ now < slot.1 + hourSeconds)) ++ Offline.expire now sent = sent :=
    List.takeWhile_append_dropWhile
  have hold : ∀ slot ∈ sent.takeWhile (fun slot => ¬(slot.1 ≤ now ∧ now < slot.1 + hourSeconds)),
      slot.1 + hourSeconds ≤ now := by
    intro slot hs
    have hgone := List.mem_takeWhile_imp hs
    rw [decide_eq_true_eq] at hgone
    have hpast := h.past slot ((List.takeWhile_prefix _).subset hs)
    exact not_lt.1 fun hlt => hgone ⟨hpast, hlt⟩
  generalize sent.takeWhile (fun slot => ¬(slot.1 ≤ now ∧ now < slot.1 + hourSeconds)) = old at hsplit hold
  have hsub : ∀ slot ∈ Offline.expire now sent, slot ∈ sent := by
    intro slot hs
    rw [← hsplit]
    exact List.mem_append_right _ hs
  -- a full window loses its oldest slots first
  have hkept : ∀ slot ∈ taken, slot ∈ Offline.expire now sent ∨ slot.1 + hourSeconds ≤ now ∨
      old = [] ∧ limit ≤ sent.length ∧ ∀ x ∈ sent, slot.1 ≤ x.1 := by
    intro slot hs
    rcases h.kept slot hs with hmem | hexpired | ⟨hfull, holder⟩
    · rw [← hsplit] at hmem
      rcases List.mem_append.1 hmem with hmem | hmem
      · exact .inr (.inl (hold slot hmem))
      · exact .inl hmem
    · exact .inr (.inl hexpired)
    · cases old with
      | nil => exact .inr (.inr ⟨rfl, hfull, holder⟩)
      | cons x old =>
        refine .inr (.inl ?_)
        have hx : slot.1 ≤ x.1 := holder x (by rw [← hsplit]; exact List.mem_cons_self)
        have hgone := hold x List.mem_cons_self
        linarith
  refine ⟨⟨?_, fun slot hs => h.past slot (hsub slot hs), ?_⟩, ?_⟩
  · exact h.sorted.sublist (List.dropWhile_sublist _)
  · intro slot hs
    rcases hkept slot hs with hmem | hexpired | ⟨rfl, hfull, holder⟩
    · exact .inl hmem
    · exact .inr (.inl hexpired)
    · rw [List.nil_append] at hsplit
      rw [hsplit]
      exact .inr (.inr ⟨hfull, holder⟩)
  · intro hfree slot hs
    rcases hkept slot hs with hmem | hexpired | ⟨rfl, hfull, _⟩
    · exact .inl hmem
    · exact .inr hexpired
    · rw [List.nil_append] at hsplit
      rw [hsplit] at hfree
      omega

theorem Window.accept (h : Window limit now taken sent) (hall : ∀ slot ∈ taken, slot ∈ sent ∨ slot.1 + hourSeconds ≤ now)
    (eventId : EventId) : Window limit now ((now, eventId) :: taken) (sent ++ [(now, eventId)]) := by
  refine ⟨?_, ?_, ?_⟩
  · refine List.pairwise_append.2 ⟨h.sorted, List.pairwise_singleton _ _, ?_⟩
    intro slot hs x hx
    rw [List.mem_singleton.1 hx]
    exact h.past slot hs
  · intro slot hs
    rcases List.mem_append.1 hs with hs | hs
    · exact h.past slot hs
    · rw [List.mem_singleton.1 hs]
  · refine List.forall_mem_cons.2 ⟨.inl (by simp), ?_⟩
    intro slot hs
    rcases hall slot hs with hmem | hexpired
    · exact .inl (List.mem_append_left _ hmem)
    · exact .inr (.inl hexpired)

/-- The newest slots of a sorted list are not older than a slot that as many of its slots are not older than. -/
theorem newest_ge {merged : List Slot} (hsorted : merged.Pairwise fun a b => a.1 ≤ b.1) {x : ℚ}
    (hcount : limit ≤ merged.countP fun slot => x ≤ slot.1) :
    ∀ slot ∈ merged.drop (merged.length - limit), x ≤ slot.1 := by
  intro slot hs
  by_contra hlt
  rw [not_le] at hlt
  have hsplit := List.take_append_drop (merged.length - limit) merged
  have hlength : (merged.drop (merged.length - limit)).length ≤ limit := by
    rw [List.length_drop]
    omega
  generalize merged.take (merged.length - limit) = old at hsplit
  generalize merged.drop (merged.length - limit) = newest at hs hsplit hlength
  subst hsplit
  -- nothing before the slot counts
  have hold : old.countP (fun slot => x ≤ slot.1) = 0 := by
    rw [List.countP_eq_zero]
    intro y hy
    have := (List.pairwise_append.1 hsorted).2.2 y hy slot hs
    simpa using this.trans_lt hlt
  have hnewest : newest.countP (fun slot => x ≤ slot.1) < newest.length := by
    refine lt_of_le_of_ne List.countP_le_length fun heq => ?_
    have := List.countP_eq_length.1 heq slot hs
    simp only [decide_eq_true_eq] at this
    linarith
  rw [List.countP_append, hold] at hcount
  omega

instance : Std.Total fun a b : Slot => a.1 ≤ b.1 := ⟨fun a b => le_total a.1 b.1⟩

instance : IsTrans Slot fun a b => a.1 ≤ b.1 := ⟨fun _ _ _ => le_trans⟩

/-- The restored slots are merged with those of the window, and the newest are kept. -/
theorem Window.restore (h : Window limit now taken sent) {fresh : List Slot} (hfresh : ∀ slot ∈ fresh, slot.1 ≤ now) :
    let merged := (sent ++ fresh).insertionSort fun a b => a.1 ≤ b.1
    Window limit now (fresh.reverse ++ taken) (merged.drop (merged.length - limit)) := by
  intro merged
  have hsorted : merged.Pairwise fun a b => a.1 ≤ b.1 := List.pairwise_insertionSort _ _
  have hmem (slot : Slot) : slot ∈ merged ↔ slot ∈ sent ∨ slot ∈ fresh := by
    rw [List.mem_insertionSort, List.mem_append]
  have hfull : limit ≤ merged.length → limit ≤ (merged.drop (merged.length - limit)).length := by
    intro hle
    rw [List.length_drop]
    omega
  have hsplit := List.take_append_drop (merged.length - limit) merged
  refine ⟨hsorted.sublist (List.drop_sublist _ _), ?_, ?_⟩
  · intro slot hs
    rcases (hmem slot).1 (List.mem_of_mem_drop hs) with hs | hs
    · exact h.past slot hs
    · exact hfresh slot hs
  · intro slot hs
    -- a slot of the merged list is one of the newest, or not newer than they are
    have hmerged (hs : slot ∈ merged) : slot ∈ merged.drop (merged.length - limit) ∨
        limit ≤ (merged.drop (merged.length - limit)).length ∧
          ∀ x ∈ merged.drop (merged.length - limit), slot.1 ≤ x.1 := by
      rw [← hsplit] at hs hsorted
      rcases List.mem_append.1 hs with hold | hnew
      · have hlong : limit ≤ merged.length := by
          have := List.length_pos_of_mem hold
          rw [List.length_take] at this
          omega
        exact .inr ⟨hfull hlong, (List.pairwise_append.1 hsorted).2.2 slot hold⟩
      · exact .inl hnew
    rcases List.mem_append.1 hs with hs | hs
    · exact (hmerged ((hmem slot).2 (.inr (List.mem_reverse.1 hs)))).imp_right .inr
    · rcases h.kept slot hs with hs | hexpired | ⟨hlong, holder⟩
      · exact (hmerged ((hmem slot).2 (.inl hs))).imp_right .inr
      · exact .inr (.inl hexpired)
      · have hcount : limit ≤ merged.countP fun x => slot.1 ≤ x.1 := by
          have hperm : merged.Perm (sent ++ fresh) := List.perm_insertionSort _ _
          rw [hperm.countP_eq, List.countP_append]
          have hsent : sent.countP (fun x => slot.1 ≤ x.1) = sent.length := by
            rw [List.countP_eq_length]
            exact fun x hx => decide_eq_true (holder x hx)
          omega
        exact .inr (.inr ⟨hfull (hcount.trans List.countP_le_length), newest_ge hsorted hcount⟩)

/-! ## One round of a drain -/

/-- What a round does to the window: nothing but the expiry of old slots, or a submission that a free slot lets through. -/
inductive Rounded (limit : Nat) (now : ℚ) (sent : List Slot) : Option Submission → List Slot → Prop
  | idle : Rounded limit now sent none sent
  | held : Rounded limit now sent none (expire now sent)
  | failed (eventId : EventId) (retry : Bool) (hfree : (expire now sent).length < limit)
      (hretry : retry = true → ∀ slot ∈ expire now sent, slot.2 ≠ eventId) :
    Rounded limit now sent (some ⟨eventId, retry, false⟩) (expire now sent)
  | accepted (eventId : EventId) (retry : Bool) (hfree : (expire now sent).length < limit)
      (hretry : retry = true → ∀ slot ∈ expire now sent, slot.2 ≠ eventId) :
    Rounded limit now sent (some ⟨eventId, retry, true⟩) (expire now sent ++ [(now, eventId)])

theorem submit_rounded (eventId : Option EventId) (retry : Bool) (hevent : retry = true → eventId.isSome = true)
    (answer : Answer) :
    let r := m.submit settings now eventId retry answer
    Rounded settings.hourlyLimit now m.sent r.1 r.2.sent := by
  unfold submit windowOpen
  dsimp only
  split
  · exact .held
  · rename_i hgate
    simp only [Bool.or_eq_true, Bool.not_eq_true', decide_eq_false_iff_not, not_or, not_not, Bool.and_eq_true, not_and] at hgate
    obtain ⟨hfree, hcounted⟩ := hgate
    cases eventId with
    | none =>
      have hretry (hr : retry = true) : ∀ slot ∈ expire now m.sent, slot.2 ≠ .process (m.sequence + 1) := by
        cases hevent hr
      cases answer with
      | full => exact .held
      | failed => exact .failed _ retry hfree hretry
      | accepted => exact .accepted _ retry hfree hretry
    | some eventId =>
      have hretry (hr : retry = true) : ∀ slot ∈ expire now m.sent, slot.2 ≠ eventId := by
        intro slot hs heq
        refine hcounted hr ?_
        simp only [Option.any_some, counted, List.any_eq_true, decide_eq_true_eq]
        exact ⟨slot, hs, heq⟩
      cases answer with
      | full => exact .held
      | failed => exact .failed _ retry hfree hretry
      | accepted => exact .accepted _ retry hfree hretry

theorem named_none {a : Alert} {earlier : Known} (h : m.named a = (none, earlier)) : earlier = .no := by
  unfold named at h
  split at h
  · split at h
    · exact (Prod.mk.inj h).2.symm
    · cases (Prod.mk.inj h).1
  · dsimp only at h
    split at h
    · exact (Prod.mk.inj h).2.symm
    · split_ifs at h
      · cases (Prod.mk.inj h).1
      · exact (Prod.mk.inj h).2.symm
      · cases (Prod.mk.inj h).1

theorem drainItem_rounded (item : Alert ⊕ Resend) (answer : Answer) :
    let r := m.drainItem settings now item answer
    Rounded settings.hourlyLimit now m.sent r.1 r.2.sent := by
  cases item with
  | inl a =>
    show Rounded _ now m.sent (m.drainAlert settings now a answer).1 (m.drainAlert settings now a answer).2.sent
    unfold drainAlert
    split
    · exact .idle
    · split
      · exact submit_rounded _ true (fun _ => rfl) answer
      · split
        · exact .idle
        · rename_i eventId earlier _ hnamed
          refine submit_rounded eventId _ ?_ answer
          intro hpending
          cases eventId with
          | some eventId => rfl
          | none =>
            rw [named_none hnamed] at hpending
            cases hpending
  | inr r =>
    show Rounded _ now m.sent (m.drainResend settings now r answer).1 (m.drainResend settings now r answer).2.sent
    have hsubmit := @submit_rounded settings now m (some r.eventId) true (fun _ => rfl) answer
    unfold drainResend
    generalize m.submit settings now (some r.eventId) true answer = s at hsubmit
    split
    · exact hsubmit
    · exact hsubmit

/-! ## What a run submits -/

/-- A submission fits into the hour: with its own slot there are not too many events, and an event that is submitted again has
no slot. -/
def Fits (limit : Nat) (earlier : List Entry) : Entry → Prop
  | .restored _ => True
  | .submitted now submission =>
    (submission.accepted = true →
      ((((now, submission.eventId) :: slots earlier).filter fun slot => now - hourSeconds < slot.1 ∧ slot.1 ≤ now).map
        Prod.snd).toFinset.card ≤ limit) ∧
    (submission.retry = true → ∀ slot ∈ slots earlier, slot.2 = submission.eventId → slot.1 + hourSeconds ≤ now)

/-- Every submission of a run fits. -/
def Capped (limit : Nat) (l : List Entry) : Prop := ∀ later x earlier, l = later ++ x :: earlier → Fits limit earlier x

variable {l : List Entry} {h : List OfflineEvent} {e : OfflineEvent} {m' : Monitor}

theorem Capped.cons {x : Entry} (h : Capped limit l) (hx : Fits limit l x) : Capped limit (x :: l) := by
  intro later y earlier heq
  rcases List.cons_eq_append_iff.1 heq with ⟨rfl, hcons⟩ | ⟨rest, rfl, rfl⟩
  · cases hcons
    exact hx
  · exact h rest y earlier rfl

theorem fits_of_free {earlier : List Entry} (hfree : sent.length < limit)
    (hall : ∀ slot ∈ slots earlier, slot ∈ sent ∨ slot.1 + hourSeconds ≤ now) {submission : Submission}
    (hretry : submission.retry = true → ∀ slot ∈ sent, slot.2 ≠ submission.eventId) :
    Fits limit earlier (.submitted now submission) := by
  refine ⟨fun _ => ?_, ?_⟩
  · have hsub : (((now, submission.eventId) :: slots earlier).filter fun slot =>
        now - hourSeconds < slot.1 ∧ slot.1 ≤ now).map Prod.snd ⊆ submission.eventId :: sent.map Prod.snd := by
      intro id hid
      obtain ⟨slot, hs, rfl⟩ := List.mem_map.1 hid
      obtain ⟨hs, hwithin⟩ := List.mem_filter.1 hs
      simp only [decide_eq_true_eq] at hwithin
      rcases List.mem_cons.1 hs with rfl | hs
      · exact List.mem_cons_self
      · rcases hall slot hs with hmem | hexpired
        · exact List.mem_cons_of_mem _ (List.mem_map_of_mem hmem)
        · linarith [hwithin.1]
    have hcard := Finset.card_le_card fun id hid => List.mem_toFinset.2 (hsub (List.mem_toFinset.1 hid))
    have hlength := List.toFinset_card_le (submission.eventId :: sent.map Prod.snd)
    simp only [List.length_cons, List.length_map] at hlength
    omega
  · intro hr slot hs heq
    rcases hall slot hs with hmem | hexpired
    · exact absurd heq (hretry hr slot hmem)
    · exact hexpired

theorem Rounded.window {submission : Option Submission} {sent' : List Slot} (hr : Rounded limit now sent submission sent')
    (h : Window limit now (slots l) sent) (hc : Capped limit l) :
    Window limit now (slots (submission.toList.map (.submitted now) ++ l)) sent' ∧
      Capped limit (submission.toList.map (.submitted now) ++ l) := by
  obtain ⟨hwindow, hall⟩ := h.expire
  cases hr with
  | idle => exact ⟨h, hc⟩
  | held => exact ⟨hwindow, hc⟩
  | failed eventId retry hfree hretry => exact ⟨hwindow, hc.cons (fits_of_free hfree (hall hfree) hretry)⟩
  | accepted eventId retry hfree hretry =>
    exact ⟨hwindow.accept (hall hfree) eventId, hc.cons (fits_of_free hfree (hall hfree) hretry)⟩

theorem drainLoop_window {answers : Nat → Answer} (items : List (Alert ⊕ Resend)) (i : Nat)
    (h : Window settings.hourlyLimit now (slots l) m.sent) (hc : Capped settings.hourlyLimit l) :
    let r := drainLoop settings now answers i items m
    Window settings.hourlyLimit now (slots ((r.1.map (.submitted now)).reverse ++ l)) r.2.sent ∧
      Capped settings.hourlyLimit ((r.1.map (.submitted now)).reverse ++ l) := by
  induction items generalizing i m l with
  | nil => exact ⟨h, hc⟩
  | cons item items ih =>
    obtain ⟨hwindow, hcapped⟩ := (@drainItem_rounded settings now m item (answers i)).window h hc
    have hrest := ih (i + 1) hwindow hcapped
    unfold drainLoop
    cases hsubmission : (m.drainItem settings now item (answers i)).1 with
    | none | some submission => simpa [hsubmission] using hrest

/-! ## Whole runs -/

/-- The clock that a call reads. -/
def Call.time? : Call → Option ℚ
  | .restoreWindow now _ => some now
  | .drain now _ _ => some now
  | _ => none

/-- The clocks of a run, the latest first. -/
def times (h : List OfflineEvent) : List ℚ := h.filterMap fun e => e.input.time?

/-- The window and the entries of a run. -/
structure Inv (limit : Nat) (h : List OfflineEvent) (m : Monitor) : Prop where
  window : ∀ now, (∀ t ∈ times h, t ≤ now) → Window limit now (slots (entries h)) m.sent
  capped : Capped limit (entries h)

theorem restorePending_sent (rows : List Resend) : (m.restorePending settings rows).sent = m.sent := by
  unfold restorePending
  split
  · rfl
  · rename_i hlength
    clear hlength
    induction rows generalizing m with
    | nil => rfl
    | cons row rows ih =>
      rw [List.foldl_cons, ih]
      split <;> rfl

theorem nameInitial_sent (names : List EventId) : (m.nameInitial names).sent = m.sent := by
  unfold nameInitial
  induction names generalizing m with
  | nil => rfl
  | cons name names ih =>
    rw [List.foldl_cons, ih]
    split <;> rfl

theorem entries_cons (e : OfflineEvent) (h : List OfflineEvent) : entries (e :: h) = e.output.entries ++ entries h :=
  List.flatMap_cons

theorem Inv.quiet (hI : Inv limit h m) (hsent : m'.sent = m.sent) (htime : e.input.time? = none) (hquiet : e.output = .quiet) :
    Inv limit (e :: h) m' := by
  have htimes : times (e :: h) = times h := List.filterMap_cons_none htime
  have hentries : entries (e :: h) = entries h := by
    rw [entries_cons, hquiet]
    rfl
  refine ⟨?_, ?_⟩
  · rw [htimes, hentries, hsent]
    exact hI.window
  · rw [hentries]
    exact hI.capped

theorem Inv.timed (htime : e.input.time? = some now) (hwindow : Window limit now (slots (e.output.entries ++ entries h)) m'.sent)
    (hcapped : Capped limit (e.output.entries ++ entries h)) : Inv limit (e :: h) m' := by
  have htimes : times (e :: h) = now :: times h := List.filterMap_cons_some htime
  refine ⟨fun later hlater => ?_, ?_⟩
  · rw [entries_cons]
    rw [htimes] at hlater
    exact hwindow.mono (hlater now List.mem_cons_self)
  · rw [entries_cons]
    exact hcapped

theorem Capped.restore (restored : List Slot) (hc : Capped limit l) : Capped limit ((restored.map .restored).reverse ++ l) := by
  rw [← List.map_reverse]
  induction restored.reverse with
  | nil => exact hc
  | cons slot restored ih => exact ih.cons trivial

theorem slots_restored (restored : List Slot) (l : List Entry) :
    slots ((restored.map .restored).reverse ++ l) = restored.reverse ++ slots l := by
  rw [← List.map_reverse]
  unfold slots
  rw [List.filterMap_append, List.filterMap_map]
  exact congrArg (· ++ _) (List.filterMap_some)

theorem Inv.restoreWindow (hI : Inv settings.hourlyLimit h m) (rows : List (EventId × ℚ)) (hnow : ∀ t ∈ times h, t ≤ now) :
    Inv settings.hourlyLimit (Event.of (step settings) m (.restoreWindow now rows) :: h)
      (m.restoreWindow settings now rows).2 := by
  refine .timed rfl ?_ (hI.capped.restore _)
  show Window _ _ (slots (((m.restoreWindow settings now rows).1.map .restored).reverse ++ entries h)) _
  rw [slots_restored]
  unfold Monitor.restoreWindow
  split
  · exact hI.window now hnow
  · refine (hI.window now hnow).restore ?_
    intro slot hs
    obtain ⟨row, hrow, rfl⟩ := List.mem_map.1 hs
    have hage := (List.mem_filter.1 hrow).2
    simp only [Bool.and_eq_true, decide_eq_true_eq] at hage
    linarith [hage.1.1]

theorem Inv.drain (hI : Inv settings.hourlyLimit h m) (due : List Alert) (answers : Nat → Answer)
    (hnow : ∀ t ∈ times h, t ≤ now) : Inv settings.hourlyLimit (Event.of (step settings) m (.drain now due answers) :: h)
      (m.drain settings now due answers).2 := by
  have hdrain : let r := m.drain settings now due answers
      Window settings.hourlyLimit now (slots ((r.1.map (.submitted now)).reverse ++ entries h)) r.2.sent ∧
        Capped settings.hourlyLimit ((r.1.map (.submitted now)).reverse ++ entries h) := by
    unfold Monitor.drain
    split
    · exact ⟨hI.window now hnow, hI.capped⟩
    · exact drainLoop_window _ 0 (hI.window now hnow) hI.capped
  exact .timed rfl hdrain.1 hdrain.2

theorem inv_of_reaches (hs : Reaches (step settings) {} h m)
    (hclocked : (times h).Pairwise fun later earlier => earlier ≤ later) : Inv settings.hourlyLimit h m := by
  induction hs with
  | start =>
    refine ⟨fun now _ => ⟨List.Pairwise.nil, nofun, nofun⟩, ?_⟩
    intro later x earlier heq
    cases later <;> cases heq
  | @next h m hs call ih =>
    cases call with
    | restoreWindow now rows =>
      obtain ⟨hnow, hrest⟩ := List.pairwise_cons.1 hclocked
      exact (ih hrest).restoreWindow rows hnow
    | drain now due answers =>
      obtain ⟨hnow, hrest⟩ := List.pairwise_cons.1 hclocked
      exact (ih hrest).drain due answers hnow
    | restorePending rows => exact (ih hclocked).quiet (restorePending_sent rows) rfl rfl
    | nameInitial names => exact (ih hclocked).quiet (nameInitial_sent names) rfl rfl
    | stop => exact (ih hclocked).quiet rfl rfl rfl

end Sentinel.Monitoring.Offline
