/-
  EcuTelemetry.Backend.TickSweep

  `tick` as one device sees it.  The first loop goes through the memory of all
  devices, the second one through the newest unresolved alerts of the whole
  fleet.  On what concerns one device the first loop is `tickDevice`, and the
  second one resolves the rows of the device that are `due`, as far as the list
  it goes through has them (`sweepDue`).

  The first loop changes nothing about which rows are due: a rule that it takes
  from the memory leaves no unresolved alert behind (`Settles`).
-/

import EcuTelemetry.Backend.OwnEvents

namespace EcuTelemetry.Backend

open Proc

variable {F : Type} [PyFloat F]

namespace Engine

/-! ## The first loop -/

/-- The first loop of `tick`, on one device. -/
def tickDevice (now clock h : F) (dev : String) : EngineM F Unit := do
  let d ← st dev
  tickActive now clock h dev d.active

theorem tick_eq (now clock : F) :
    tick now clock = Proc.get >>= fun s => ofExcept s.hold >>= fun h =>
      forEach s.devices (fun e => tickDevice now clock h e.1) >>= fun _ =>
      Proc.get >>= fun s => forEach (s.db.openAlerts 1000) (tickSweep now clock h) := rfl

/-- Resolving the entry of an `active` map raises no exception. -/
def resolvable (now h : F) (e : Json F × F) : Bool :=
  e.1 == .str "offline" || !PyFloat.le h (PyFloat.sub now e.2) || e.1.sqlText.isOk

theorem resolve_ok {dev : String} {rule : Json F} (h : rule.sqlText.isOk = true) (now clock : F)
    (s : Engine F) : (resolve dev rule now clock s).1 = .ok () := by
  rcases resolve_run dev rule now clock s with ⟨e, he, -⟩ | ⟨r, D, db, -, hrun, -⟩
  · rw [he] at h
    cases h
  · rw [hrun]

/-- Names that are texts, or too recent, make no exception. -/
theorem tickActive_ok {now h : F} {active : Dict (Json F) F}
    (hactive : ∀ e ∈ active, resolvable now h e = true) (clock : F) (dev : String) (s : Engine F) :
    (tickActive now clock h dev active s).1 = .ok () := by
  unfold tickActive
  induction active generalizing s with
  | nil => rfl
  | cons e active ih =>
    obtain ⟨he, hactive⟩ := List.forall_mem_cons.mp hactive
    -- one rule: the offline alert is skipped, and what is due can be resolved
    have hbody : ((if e.1 == .str "offline" then pure ()
        else if PyFloat.le h (PyFloat.sub now e.2) then resolve dev e.1 now clock
        else pure () : EngineM F Unit) s).1 = .ok () := by
      by_cases hoff : (e.1 == .str "offline") = true
      · rw [if_pos hoff]
        rfl
      · rw [if_neg hoff]
        by_cases hle : PyFloat.le h (PyFloat.sub now e.2) = true
        · rw [if_pos hle]
          refine resolve_ok ?_ now clock s
          unfold resolvable at he
          rw [Bool.eq_false_iff.mpr hoff, hle] at he
          exact he
        · rw [if_neg hle]
          rfl
    rw [forEach, bind_run_ok (Prod.ext hbody rfl)]
    exact ih hactive _

theorem respects_tickDevice {dev : String} (now clock h : F) :
    Respects (Agree dev) (tickDevice now clock h dev) := by
  refine respects_st.bind fun d => .forEach fun e _ => ?_
  exact .ite (fun _ => .pure _) fun _ => .ite (fun _ => respects_resolve _ _ _) fun _ => .pure _

theorem keeps_sameShare_tickDevice {dev other : String} (hne : dev ≠ other) (now clock h : F) :
    Keeps (SameShare dev) (tickDevice now clock h other) := by
  refine (keeps_sameShare_st hne).bind fun d => Keeps.forEach fun e _ => ?_
  exact Keeps.ite (fun _ => Keeps.pure _) fun _ =>
    Keeps.ite (fun _ => keeps_sameShare_resolve hne _ _ _) fun _ => Keeps.pure _

/-- The memory of a device is what the dictionary held at the start. -/
def Remembers (s : Engine F) (L : Dict String (DeviceState F)) : Prop :=
  ∀ e ∈ L, Dict.get? s.devices e.1 = some e.2

omit [PyFloat F] in
theorem Remembers.of_same {s s' : Engine F} {L : Dict String (DeviceState F)} (h : Remembers s L)
    (hs : s.Sound) (hsame : ∀ e ∈ L, SameShare e.1 s s') : Remembers s' L := by
  intro e he
  have hshare := ((hsame e he).2 hs).2
  exact (congrArg Share.memory hshare).trans (h e he)

/-- The other devices return, and leave the share of the device alone. -/
theorem tickDevices_others {dev : String} (now clock h : F) {L : Dict String (DeviceState F)}
    (hL : Dict.Distinct L) (hne : ∀ e ∈ L, e.1 ≠ dev)
    (hnames : ∀ e ∈ L, ∀ x ∈ e.2.active, resolvable now h x = true) {s : Engine F} (hs : s.Sound)
    (hmem : Remembers s L) :
    ∃ s', forEach L (fun e => tickDevice now clock h e.1) s = (.ok (), s') ∧
      ∀ d, (∀ e ∈ L, e.1 ≠ d) → SameShare d s s' := by
  induction L generalizing s with
  | nil => exact ⟨s, rfl, fun d _ => refl_of (SameShare d) s⟩
  | cons e L ih =>
    obtain ⟨hfirst, hrest⟩ := List.nodup_cons.mp hL
    obtain ⟨he, hne⟩ := List.forall_mem_cons.mp hne
    obtain ⟨hname, hnames⟩ := List.forall_mem_cons.mp hnames
    obtain ⟨hget, hmem⟩ := List.forall_mem_cons.mp hmem
    have hkeep : ∀ d, e.1 ≠ d → SameShare d s (tickDevice now clock h e.1 s).2 := fun d hd =>
      keeps_sameShare_tickDevice hd.symm now clock h s
    -- the names of its rules are texts or have been lost, so nothing raises
    have hok : (tickDevice now clock h e.1 s).1 = .ok () := by
      obtain ⟨D, hrun, -⟩ := st_run e.1 s
      have hrec : (s.share e.1).memory = some e.2 := hget
      rw [tickDevice, bind_run_ok hrun, hrec]
      exact tickActive_ok hname clock e.1 _
    have hs' := ((hkeep dev he).2 hs).1
    -- the devices still to come are untouched
    have hmem' := Remembers.of_same hmem hs fun x hx => hkeep x.1 fun heq =>
      hfirst (List.mem_map.mpr ⟨x, hx, heq.symm⟩)
    obtain ⟨s', hrun, hsame⟩ := ih hrest hne hnames hs' hmem'
    refine ⟨s', ?_, fun d hd => ?_⟩
    · rw [forEach, bind_run_ok (Prod.ext hok rfl)]
      exact hrun
    · obtain ⟨hd, hds⟩ := List.forall_mem_cons.mp hd
      exact trans_of (SameShare d) (hkeep d hd) (hsame d hds)

/-- The first loop, on what concerns the device. -/
theorem tickDevices_own {dev : String} (now clock h : F) {s t : Engine F} (hA : Agree dev s t)
    (hnames : ∀ e ∈ s.devices, e.1 ≠ dev → ∀ x ∈ e.2.active, resolvable now h x = true) :
    Matches (Agree dev) (forEach s.devices fun e => tickDevice now clock h e.1)
      (tickDevice now clock h dev) s t := by
  have hmem : Remembers s s.devices := fun e he =>
    Dict.get?_of_mem (.of_lawful e.1) hA.sound.distinct he
  have hdist := hA.sound.distinct
  have hget := hA.memory
  rw [record] at hget
  -- the devices of the sweep are those of its start; only the state changes
  revert hnames hmem hdist hget
  generalize s.devices = L
  intro hnames hmem hdist hget
  rcases hsome : Dict.get? L dev with _ | d
  · -- the device has no record
    have hne : ∀ e ∈ L, e.1 ≠ dev := by
      rintro e he rfl
      rw [Dict.get?_of_mem (.of_lawful e.1) hdist he] at hsome
      cases hsome
    obtain ⟨s', hrun, hsame⟩ := tickDevices_others now clock h hdist hne
      (fun e he => hnames e he (hne e he)) hA.sound hmem
    obtain ⟨t', hrun', ht⟩ := st_agree hA.sound'
    rw [hsome] at hget
    rw [Matches, hrun, tickDevice, bind_run_ok hrun', ← hget]
    exact ⟨rfl, (Agree.of_same hA.sound (hsame dev hne)).symm.trans (hA.trans ht)⟩
  · -- its turn comes between the others
    obtain ⟨L₁, L₂, rfl⟩ := List.append_of_mem (Dict.get?_mem (.of_lawful dev) hsome)
    have hkeys : ((L₁.map Prod.fst) ++ dev :: (L₂.map Prod.fst)).Nodup := by
      have hdist' := hdist
      rw [Dict.Distinct, List.map_append, List.map_cons] at hdist'
      exact hdist'
    obtain ⟨hd₁, hd₂, hdisj⟩ := List.nodup_append.mp hkeys
    obtain ⟨hdev₂, hd₂⟩ := List.nodup_cons.mp hd₂
    have hne₁ : ∀ e ∈ L₁, e.1 ≠ dev := fun e he =>
      hdisj e.1 (List.mem_map_of_mem he) dev List.mem_cons_self
    have hne₂ : ∀ e ∈ L₂, e.1 ≠ dev := fun e he heq =>
      hdev₂ (heq ▸ List.mem_map_of_mem he)
    have hin₁ : ∀ e ∈ L₁, e ∈ L₁ ++ (dev, d) :: L₂ := fun e he => List.mem_append_left _ he
    have hin₂ : ∀ e ∈ L₂, e ∈ L₁ ++ (dev, d) :: L₂ := fun e he =>
      List.mem_append_right _ (List.mem_cons_of_mem _ he)
    obtain ⟨s₁, hrun₁, hsame₁⟩ := tickDevices_others now clock h hd₁ hne₁
      (fun e he => hnames e (hin₁ e he) (hne₁ e he)) hA.sound fun e he => hmem e (hin₁ e he)
    have hA₁ := (Agree.of_same hA.sound (hsame₁ dev hne₁)).symm.trans hA
    have hmem₁ : Remembers s₁ L₂ := Remembers.of_same (fun e he => hmem e (hin₂ e he)) hA.sound
      fun e he => hsame₁ e.1 fun x hx =>
        hdisj x.1 (List.mem_map_of_mem hx) e.1 (List.mem_cons_of_mem _ (List.mem_map_of_mem he))
    -- the device itself: both runs take the same step
    have hown := respects_tickDevice now clock h s₁ t hA₁
    rw [Matches, forEach_append, bind_run_ok hrun₁, forEach, bind_run]
    obtain ⟨hres, hstate⟩ := hown
    rcases hrun₂ : tickDevice now clock h dev s₁ with ⟨e | _, s₂⟩
    -- an exception ends the sweep here
    · rw [hrun₂] at hres hstate
      exact ⟨hres, hstate⟩
    · rw [hrun₂] at hres hstate
      have hmem₂ : Remembers s₂ L₂ := Remembers.of_same hmem₁ hA₁.sound fun e he => by
        have hkeep := keeps_sameShare_tickDevice (hne₂ e he) now clock h s₁
        rw [hrun₂] at hkeep
        exact hkeep
      obtain ⟨s₃, hrun₃, hsame₃⟩ := tickDevices_others now clock h hd₂ hne₂
        (fun e he => hnames e (hin₂ e he) (hne₂ e he)) hstate.sound hmem₂
      dsimp only
      rw [hrun₃, ← hres]
      exact ⟨rfl, (Agree.of_same hstate.sound (hsame₃ dev hne₂)).symm.trans hstate⟩

/-! ## The sweep -/

/-- The sweep resolves the alert, where the record of its device is `d`. -/
def due (d : DeviceState F) (now h : F) (a : AlertRow F) : Bool :=
  match a.rule with
  | none => false
  | some r =>
    r != "offline" && !Dict.contains d.active (.str r) && PyFloat.le h (PyFloat.sub now (stamp a))

theorem inMemory_record (s : Engine F) (dev : String) (rule : Json F) :
    s.inMemory dev rule = Dict.contains (s.record dev).active rule := by
  rw [inMemory, record]
  cases Dict.get? s.devices dev <;> rfl

/-- The name in a row can be bound. -/
theorem rowKey_isOk (a : AlertRow F) :
    ((a.rule.map Json.str).getD .null : Json F).sqlText.isOk = true := by
  cases a.rule <;> rfl

/-- `resolve` raises nothing, and leaves a record without the rule as it is. -/
theorem resolve_unseen {dev : String} {rule : Json F} (now clock : F) {s : Engine F}
    (hok : rule.sqlText.isOk = true) (hnot : s.inMemory dev rule = false) :
    ∃ s', resolve dev rule now clock s = (.ok (), s') ∧ s'.record dev = s.record dev := by
  rcases resolve_run dev rule now clock s with ⟨e, he, -⟩ | ⟨r, D, db, -, hrun, hself, -⟩
  · rw [he] at hok
    cases hok
  · refine ⟨_, hrun, ?_⟩
    rw [inMemory_record] at hnot
    have hmem : (s.share dev).memory.getD {} = s.record dev := rfl
    rw [hmem] at hself
    dsimp only at hself
    rw [Dict.pop_of_not_contains hnot] at hself
    exact congrArg (·.getD {}) hself

/-- A row of the sweep makes none either, and leaves the memory. -/
theorem tickSweep_run (now clock h : F) (a : AlertRow F) (s : Engine F) :
    ∃ s', tickSweep now clock h a s = (.ok (), s') ∧
      s'.record a.deviceId = s.record a.deviceId := by
  rw [tickSweep, bind_run_ok (get_run s)]
  by_cases hoff : a.rule = some "offline"
  · rw [if_pos hoff]
    exact ⟨s, rfl, rfl⟩
  · rw [if_neg hoff]
    by_cases hmem : s.inMemory a.deviceId ((a.rule.map Json.str).getD .null) = true
    · rw [if_pos hmem]
      exact ⟨s, rfl, rfl⟩
    · rw [if_neg hmem]
      by_cases hle : PyFloat.le h (PyFloat.sub now (stamp a)) = true
      · rw [if_pos hle]
        exact resolve_unseen now clock (rowKey_isOk a) (Bool.eq_false_iff.mpr hmem)
      · rw [if_neg hle]
        exact ⟨s, rfl, rfl⟩

/-- A row that is not due is not resolved. -/
theorem tickSweep_idle (now clock h : F) {a : AlertRow F} {s : Engine F} (hs : s.Sound)
    (hdue : due (s.record a.deviceId) now h a = false) :
    Agree a.deviceId s (tickSweep now clock h a s).2 := by
  obtain ⟨s', hrun, hrec⟩ := tickSweep_run now clock h a s
  rw [hrun]
  rw [tickSweep, bind_run_ok (get_run s)] at hrun
  rw [due] at hdue
  -- three tests of the sweep pass a row over; the fourth way resolves it
  split_ifs at hrun with hoff hmem hle
  · cases hrun
    exact .refl hs
  · cases hrun
    exact .refl hs
  · rcases hrule : a.rule with _ | r
    · -- a row with `rule = NULL` is never found
      rw [hrule] at hrun
      rcases resolve_run a.deviceId .null now clock s with
        ⟨e, he, -⟩ | ⟨r, D, db, hr, hrun', -, -, hdist, hdb, -⟩
      · cases he
      · cases hr
        have hdb := hdb hs.alerts
        have hclose : s.db.alerts.map (close a.deviceId none now clock) = s.db.alerts :=
          Database.map_close_of_none now clock rfl
        rw [hclose] at hdb
        subst hdb
        have hend := hrun.symm.trans hrun'
        cases hend
        refine (Agree.refl hs).devices ?_ hs.distinct (hdist hs.distinct)
        exact hrec.symm
    -- a row that is not due does not come here
    · rw [hrule] at hdue hoff hmem
      rw [inMemory_record] at hmem
      have hoff' : (r != "offline") = true := bne_iff_ne.mpr fun heq => hoff (congrArg some heq)
      have hmem' : Dict.contains (s.record a.deviceId).active (.str r) = false :=
        Bool.eq_false_iff.mpr hmem
      dsimp only at hdue
      rw [hoff', hmem', hle] at hdue
      cases hdue
  · cases hrun
    exact .refl hs

/-- A row of the device does the same on both sides. -/
theorem respects_tickSweep (now clock h : F) (a : AlertRow F) :
    Respects (Agree a.deviceId) (tickSweep now clock h a) := by
  refine .get_bind (fun s t hA => ?_) fun s => ?_
  · dsimp only
    rw [inMemory_record, inMemory_record, hA.memory]
  · dsimp only
    exact .ite (fun _ => .pure _) fun _ => .ite (fun _ => .pure _) fun _ =>
      .ite (fun _ => respects_resolve _ _ _) fun _ => .pure _

theorem keeps_sameShare_tickSweep {dev : String} {a : AlertRow F} (hne : dev ≠ a.deviceId)
    (now clock h : F) : Keeps (SameShare dev) (tickSweep now clock h a) := by
  refine Keeps.get.bind fun s => ?_
  dsimp only
  exact Keeps.ite (fun _ => Keeps.pure _) fun _ => Keeps.ite (fun _ => Keeps.pure _) fun _ =>
    Keeps.ite (fun _ => keeps_sameShare_resolve hne _ _ _) fun _ => Keeps.pure _

/-- The rows of a device that the sweep resolves, without their ids. -/
def sweepDue (dev : String) (d : DeviceState F) (now h : F) (rows : List (AlertRow F)) :
    List (AlertRow F) :=
  (rows.filter fun a => a.deviceId = dev && due d now h a).map AlertRow.anonymous

theorem sweepDue_cons_due {d : DeviceState F} {now h : F} {a : AlertRow F}
    (hdue : due d now h a = true) (rows : List (AlertRow F)) :
    sweepDue a.deviceId d now h (a :: rows) = a.anonymous :: sweepDue a.deviceId d now h rows := by
  rw [sweepDue, sweepDue, List.filter_cons, decide_eq_true (p := a.deviceId = a.deviceId) rfl, hdue]
  rfl

/-- A row that is not due is left out. -/
theorem sweepDue_cons_skip {dev : String} {d : DeviceState F} {now h : F} {a : AlertRow F}
    (hskip : a.deviceId = dev → due d now h a = false) (rows : List (AlertRow F)) :
    sweepDue dev d now h (a :: rows) = sweepDue dev d now h rows := by
  rw [sweepDue, sweepDue, List.filter_cons, if_neg]
  intro hboth
  rw [Bool.and_eq_true, decide_eq_true_eq] at hboth
  rw [hskip hboth.1] at hboth
  cases hboth.2

/-- The sweep, on what concerns the device. -/
theorem sweep_own {dev : String} (now clock h : F) {s t : Engine F} (hA : Agree dev s t)
    (rows : List (AlertRow F)) :
    Matches (Agree dev) (forEach rows (tickSweep now clock h))
      (forEach (sweepDue dev (s.record dev) now h rows) (tickSweep now clock h)) s t := by
  induction rows generalizing s t with
  | nil => exact ⟨rfl, hA⟩
  | cons a rows ih =>
    obtain ⟨s', hrun, hrec⟩ := tickSweep_run now clock h a s
    have hs' : (tickSweep now clock h a s).2 = s' := congrArg Prod.snd hrun
    by_cases hdev : a.deviceId = dev
    · subst hdev
      by_cases hdue : due (s.record a.deviceId) now h a = true
      · -- both resolve it
        rw [sweepDue_cons_due hdue]
        have hboth : Matches (Agree a.deviceId) (tickSweep now clock h a)
            (tickSweep now clock h a.anonymous) s t := respects_tickSweep now clock h a s t hA
        refine hboth.bind fun _ _ hA' => ?_
        rw [hs'] at hA' ⊢
        rw [← hrec]
        exact ih hA'
      -- not due: the sweep passes it over
      · have hsame := tickSweep_idle now clock h hA.sound (Bool.eq_false_iff.mpr hdue)
        rw [hs'] at hsame
        rw [sweepDue_cons_skip fun _ => Bool.eq_false_iff.mpr hdue, ← hrec]
        exact Matches.skip hrun (ih (hsame.symm.trans hA))
    -- a row of another device
    · have hkeep := keeps_sameShare_tickSweep (Ne.symm hdev) now clock h s
      rw [hs'] at hkeep
      have hsame := Agree.of_same hA.sound hkeep
      rw [sweepDue_cons_skip fun heq => absurd heq hdev, hsame.memory]
      exact Matches.skip hrun (ih (hsame.symm.trans hA))

/-! ## What the first loop leaves to the sweep -/

/-- The unresolved alerts, newest first. -/
def unresolved (s : Engine F) : List (AlertRow F) :=
  s.db.alerts.reverse.filter (·.status.unresolved)

/-- Alerts are resolved, and a rule leaves the memory with its alert. -/
def Settles (s s' : Engine F) : Prop :=
  s.Sound → s'.Sound ∧ s'.unresolved.Sublist s.unresolved ∧
    ∀ dev r, s.inMemory dev (.str r) = true →
      s'.inMemory dev (.str r) = true ∨ ∀ a ∈ s'.unresolved, ¬ a.live dev (some r) = true

instance : IsPreorder (Engine F) (Settles (F := F)) where
  refl _ hs := ⟨hs, .refl _, fun _ _ h => .inl h⟩
  trans _ _ _ h h' := by
    intro hs
    obtain ⟨hs', hsub, hmem⟩ := h hs
    obtain ⟨hs'', hsub', hmem'⟩ := h' hs'
    refine ⟨hs'', hsub'.trans hsub, fun dev r hr => ?_⟩
    rcases hmem dev r hr with hr' | hnone
    · exact hmem' dev r hr'
    · exact .inr fun a ha => hnone a (hsub'.subset ha)

omit [PyFloat F] in
/-- What an update can only take out. -/
theorem filter_map_sublist {f : AlertRow F → AlertRow F} {p : AlertRow F → Bool}
    (hf : ∀ a, f a = a ∨ p (f a) = false) (rows : List (AlertRow F)) :
    ((rows.map f).filter p).Sublist (rows.filter p) := by
  induction rows with
  | nil => exact .refl _
  | cons a rows ih =>
    rw [List.map_cons, List.filter_cons]
    rcases hf a with heq | hnot
    · rw [heq, List.filter_cons]
      split
      · exact ih.cons_cons a
      · exact ih
    · rw [hnot, if_neg Bool.false_ne_true, List.filter_cons]
      split
      · exact ih.cons a
      · exact ih

omit [PyFloat F] in
theorem close_cases (dev : String) (rule : Option String) (now clock : F) (a : AlertRow F) :
    close dev rule now clock a = a ∨ (close dev rule now clock a).status.unresolved = false := by
  unfold close
  split
  · exact .inr rfl
  · exact .inl rfl

omit [PyFloat F] in
/-- A closed row is no longer live. -/
theorem close_not_live (dev r : String) (now clock : F) (a : AlertRow F) :
    ¬ (close dev (some r) now clock a).live dev (some r) = true := by
  unfold close
  split
  · intro h
    simp only [AlertRow.live, decide_eq_true_eq] at h
    cases h.2.2
  · next h => exact fun hlive => h ⟨rfl, hlive⟩

/-- A record that is only made. -/
theorem settles_st (dev : String) : Keeps (Settles (F := F)) (st dev) := by
  intro s
  obtain ⟨D, hrun, hself, hne, hdist⟩ := st_run dev s
  rw [hrun]
  refine fun hs => ⟨⟨hs.alerts, hdist hs.distinct⟩, .refl _, fun d r hr => .inl ?_⟩
  by_cases hd : d = dev
  · subst hd
    rw [inMemory_record] at hr ⊢
    rw [record, hself]
    exact hr
  · rw [inMemory, hne d hd]
    exact hr

/-- `resolve` takes a rule out of the memory and its row out of the unresolved. -/
theorem settles_resolve (dev : String) (rule : Json F) (now clock : F) :
    Keeps Settles (resolve dev rule now clock) := by
  intro s
  rcases resolve_run dev rule now clock s with
    ⟨e, -, hrun⟩ | ⟨r, D, db, hr, hrun, hself, hne, hdist, hdb, hkeyed⟩
  · rw [hrun]
    exact refl_of Settles s
  · rw [hrun]
    intro hs
    -- rows are closed in place: what was unresolved can only become fewer
    have halerts : db.alerts = s.db.alerts.map (close dev r now clock) := by rw [hdb hs.alerts]
    refine ⟨⟨hkeyed hs.alerts, hdist hs.distinct⟩, ?_, fun d q hq => ?_⟩
    · rw [unresolved, unresolved]
      dsimp only
      rw [halerts, ← List.map_reverse]
      exact filter_map_sublist (close_cases dev r now clock) _
    · by_cases hd : d = dev
      · subst hd
        -- another rule of this device, and below another device
        by_cases hrule : rule = .str q
        · -- the rule that leaves the memory
          subst hrule
          cases hr
          refine .inr fun a ha => ?_
          rw [unresolved] at ha
          dsimp only at ha
          rw [halerts] at ha
          obtain ⟨b, -, rfl⟩ := List.mem_map.mp (List.mem_reverse.mp (List.mem_filter.mp ha).1)
          exact close_not_live d q now clock b
        · left
          have hmem : (s.share d).memory.getD {} = s.record d := rfl
          rw [hmem] at hself
          rw [inMemory_record] at hq ⊢
          rw [record, hself, Option.getD_some, Dict.contains]
          dsimp only
          rw [Dict.get?_pop_of_not_beq (Json.exact_str q) fun h => hrule (Json.str_beq.mp h)]
          exact hq
      · left
        rw [inMemory, hne d hd]
        exact hq

theorem settles_tickDevice (now clock h : F) (dev : String) :
    Keeps Settles (tickDevice now clock h dev) := by
  refine (settles_st dev).bind fun d => Keeps.forEach fun e _ => ?_
  exact Keeps.ite (fun _ => Keeps.pure _) fun _ =>
    Keeps.ite (fun _ => settles_resolve _ _ _ _) fun _ => Keeps.pure _

/-- The sweep would resolve the alert, were it among those it goes through. -/
def exposed (s : Engine F) (now h : F) (a : AlertRow F) : Bool :=
  due (s.record a.deviceId) now h a

/-- What is exposed after the first loop was so before. -/
theorem Settles.exposed {s s' : Engine F} (h : Settles s s') (hs : s.Sound) {now hold : F}
    {a : AlertRow F} (ha : a ∈ s'.unresolved) (hdue : s'.exposed now hold a = true) :
    s.exposed now hold a = true := by
  obtain ⟨-, -, hmem⟩ := h hs
  rw [Engine.exposed, due] at hdue ⊢
  rcases hrule : a.rule with _ | r
  · rw [hrule] at hdue
    cases hdue
  · rw [hrule] at hdue
    dsimp only at hdue ⊢
    rw [← inMemory_record] at hdue ⊢
    simp only [Bool.and_eq_true, Bool.not_eq_true'] at hdue ⊢
    obtain ⟨⟨hoff, hnot⟩, hle⟩ := hdue
    refine ⟨⟨hoff, Bool.eq_false_iff.mpr fun hin => ?_⟩, hle⟩
    -- the rule was in memory before, or its row is closed now
    rcases hmem a.deviceId r hin with hin' | hnone
    · rw [hin'] at hnot
      cases hnot
    · have hopen := (List.mem_filter.mp ha).2
      refine hnone a ha ?_
      rw [AlertRow.live, decide_eq_true_eq]
      exact ⟨rfl, hrule, hopen⟩

end Engine

end EcuTelemetry.Backend
