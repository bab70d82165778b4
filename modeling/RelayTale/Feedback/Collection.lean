import RelayTale.Feedback.Charges

/-!
# Every message is received once

The collector of a source has its lock, so the checkpoint in its memory is the
one in the table. What its metadata listed is received in the order of the UIDs:
the part that is still to do lies behind the checkpoint, and for the rest there
are receipts.
-/

namespace RelayTale.Feedback.Collector

open RelayTale.Smtp

section Soundness

def Phase.source : Phase → Option Bytes
  | .idle => none
  | .selected o _ => some o.source
  | .alerting o _ _ _ => some o.source
  | .windowed o _ _ _ => some o.source
  | .collecting o _ _ _ _ _ => some o.source

def Checkpointed (db : Database) (o : CollectOptions) (snapshot : MailboxSnapshot)
    (out : Collection) : Prop :=
  ∃ row, db.sources o.source = some row ∧ row.uidValidity = snapshot.uidValidity ∧
    row.lastUID = out.lastUID

def Received (db : Database) (o : CollectOptions) (snapshot : MailboxSnapshot)
    (m : MailMetadata) : Prop :=
  (o.source, snapshot.uidValidity, m.uid) ∈ db.receipts.map Receipt.key

/-- What is left to do lies behind the checkpoint, the rest is received. -/
structure Progress (db : Database) (o : CollectOptions) (snapshot : MailboxSnapshot)
    (last : UInt64) (listed todo : List MailMetadata) (out : Collection) : Prop where
  received : ∀ m ∈ listed, m ∈ todo ∨ Received db o snapshot m
  ahead : ∀ m ∈ todo, out.lastUID < m.uid ∧ m.uid.toUInt64 ≤ last
  sorted : todo.Pairwise fun m other => m.uid < other.uid

def Ready (db : Database) : Phase → Prop
  | .idle => True
  | .selected o _ => o.accepted = true
  | .alerting o _ _ out => out.source = o.source
  | .windowed o snapshot last out =>
      out.source = o.source ∧ Checkpointed db o snapshot out ∧
        out.lastUID.toNat < last.toNat ∧ last.toNat < snapshot.uidNext.toNat ∧
        last.toNat = min (out.lastUID.toNat + o.batch.toNat) (snapshot.uidNext.toNat - 1)
  | .collecting o snapshot last listed todo out =>
      out.source = o.source ∧ Checkpointed db o snapshot out ∧
        out.lastUID.toNat ≤ last.toNat ∧ last.toNat < snapshot.uidNext.toNat ∧
        Progress db o snapshot last listed todo out

structure Sound (s : System) : Prop where
  lawful : Lawful s.db
  locked : ∀ {p name}, (s.phase p).source = some name → s.holder name = some p
  ready : ∀ p, Ready s.db (s.phase p)

/-- Only this source is changed, and receipts are only added. -/
def Touches (name : Bytes) (db db' : Database) : Prop :=
  (∀ other, other ≠ name → db'.sources other = db.sources other) ∧ db.receipts ⊆ db'.receipts

variable {s : System} {db db' : Database} {name : Bytes} {row : Source} {p : ProcessID}
variable {phase next : Phase} {out : Collection} {e : Option CollectError}

theorem touches_refl (name : Bytes) (db : Database) : Touches name db db :=
  ⟨fun _ _ => rfl, List.Subset.refl _⟩

theorem Grows.touches {receipts : List Receipt} {alerts : List Alert}
    (grows : Grows name row receipts alerts db db') : Touches name db db' := by
  refine ⟨fun other different => ?_, ?_⟩
  · rw [grows.sources, Function.update_of_ne different]
  · rw [grows.receipts]
    exact List.subset_append_left _ _

theorem Received.mono {o : CollectOptions} {snapshot : MailboxSnapshot} {m : MailMetadata}
    (received : Received db o snapshot m) (subset : db.receipts ⊆ db'.receipts) :
    Received db' o snapshot m :=
  List.map_subset _ subset received

theorem Ready.mono (ready : Ready db phase)
    (sources : ∀ name, phase.source = some name → db'.sources name = db.sources name)
    (subset : db.receipts ⊆ db'.receipts) : Ready db' phase := by
  have kept {o : CollectOptions} {snapshot : MailboxSnapshot} {out : Collection}
      (checkpointed : Checkpointed db o snapshot out)
      (same : db'.sources o.source = db.sources o.source) : Checkpointed db' o snapshot out := by
    obtain ⟨row, found, facts⟩ := checkpointed
    exact ⟨row, same.trans found, facts⟩
  cases phase with
  | idle => trivial
  | selected o snapshot => exact ready
  | alerting o snapshot kind out => exact ready
  | windowed o snapshot last out =>
    obtain ⟨source, checkpointed, bounds⟩ := ready
    exact ⟨source, kept checkpointed (sources _ rfl), bounds⟩
  | collecting o snapshot last listed todo out =>
    obtain ⟨source, checkpointed, low, high, progress⟩ := ready
    refine ⟨source, kept checkpointed (sources _ rfl), low, high, ?_, progress.ahead,
      progress.sorted⟩
    exact fun m member => (progress.received m member).imp_right fun old => old.mono subset

variable (sound : Sound s)

include sound

theorem Sound.ready_at (here : s.phase p = phase) : Ready s.db phase :=
  here ▸ sound.ready p

/-- Another process works on another source. -/
theorem Sound.apart {q : ProcessID} {name' : Bytes} (different : q ≠ p)
    (busy : (s.phase p).source = some name) (other : (s.phase q).source = some name') :
    name' ≠ name := by
  rintro rfl
  have mine := sound.locked busy
  rw [sound.locked other] at mine
  exact different (Option.some.inj mine)

theorem Sound.ready_other {q : ProcessID} (different : q ≠ p)
    (busy : (s.phase p).source = some name) (touches : Touches name s.db db') :
    Ready db' (s.phase q) := by
  refine (sound.ready q).mono (fun name' other => ?_) touches.2
  exact touches.1 name' (sound.apart different busy other)

theorem Sound.goto (lawful : Lawful db') (touches : Touches name s.db db')
    (busy : (s.phase p).source = some name) (same : next.source = some name)
    (ready : Ready db' next) : Sound ({ s with db := db' }.goto p next) where
  lawful := lawful
  locked {q name'} working := by
    by_cases mine : q = p
    · subst mine
      simp only [System.goto, Function.update_self] at working
      cases same.symm.trans working
      exact sound.locked busy
    · simp only [System.goto, Function.update_of_ne mine] at working
      exact sound.locked working
  ready q := by
    by_cases mine : q = p
    · subst mine
      simpa only [System.goto, Function.update_self] using ready
    · simpa only [System.goto, Function.update_of_ne mine] using
        sound.ready_other mine busy touches

theorem Sound.finish (lawful : Lawful db') (touches : Touches out.source s.db db')
    (busy : (s.phase p).source = some out.source) :
    Sound ({ s with db := db' }.finish p out e) where
  lawful := lawful
  locked {q name'} working := by
    by_cases mine : q = p
    · subst mine
      simp only [System.finish, Function.update_self, Phase.source] at working
      cases working
    · simp only [System.finish, Function.update_of_ne mine] at working
      simp only [System.finish, Function.update_of_ne (sound.apart mine busy working)]
      exact sound.locked working
  ready q := by
    by_cases mine : q = p
    · subst mine
      simp only [System.finish, Function.update_self]
      trivial
    · simpa only [System.finish, Function.update_of_ne mine] using
        sound.ready_other mine busy touches

/-- Nothing was committed. -/
theorem Sound.stop (busy : (s.phase p).source = some out.source) : Sound (s.finish p out e) :=
  sound.finish sound.lawful (touches_refl _ _) busy

theorem Sound.conclude {ending : Ending} {after : System → System} (lawful : Lawful db')
    (touches : Touches out.source s.db db') (busy : (s.phase p).source = some out.source)
    (done : Sound (after { s with db := db' })) : Sound (s.conclude p ending db' out after) := by
  cases ending with
  | done => exact done
  | refused => exact sound.stop busy
  | lost => exact sound.finish lawful touches busy

end Soundness

section Steps

variable {s : System} {p : ProcessID} {o : CollectOptions} {snapshot : MailboxSnapshot}
variable {out : Collection} {ending : Ending} {db' : Database} {row : Source}

theorem accepted_batch (accepted : o.accepted = true) : 1 ≤ o.batch ∧ o.batch ≤ 100 := by
  simp only [CollectOptions.accepted, Bool.and_eq_true, decide_eq_true_eq] at accepted
  exact ⟨accepted.1.2, accepted.2⟩

theorem Grows.checkpointed (grows : Grows o.source row [] [] s.db db')
    (epoch : row.uidValidity = snapshot.uidValidity) (lastUID : row.lastUID = out.lastUID) :
    Checkpointed db' o snapshot out :=
  ⟨row, by rw [grows.sources, Function.update_self], epoch, lastUID⟩

theorem count_fields (out : Collection) (uid : UInt32) (outcome : Outcome) :
    (out.count uid outcome).source = out.source ∧ (out.count uid outcome).lastUID = uid := by
  unfold Collection.count
  split <;> exact ⟨rfl, rfl⟩

theorem Progress.save {m : MailMetadata} {last : UInt64} {listed rest : List MailMetadata}
    {db : Database} {outcome : Outcome}
    (progress : Progress db o snapshot last listed (m :: rest) out)
    (touches : Touches o.source db db') (received : Received db' o snapshot m) :
    Progress db' o snapshot last listed rest (out.count m.uid outcome) := by
  obtain ⟨least, sorted⟩ := List.pairwise_cons.mp progress.sorted
  refine ⟨fun other member => ?_, fun other member => ?_, sorted⟩
  · rcases progress.received other member with todo | old
    · rcases List.mem_cons.mp todo with rfl | later
      · exact .inr received
      · exact .inl later
    · exact .inr (old.mono touches.2)
  · rw [(count_fields out m.uid outcome).2]
    exact ⟨least other member, (progress.ahead other (List.mem_cons_of_mem _ member)).2⟩

variable (sound : Sound s)

include sound

theorem Sound.startCollect (idle : s.phase p = .idle)
    (opened : Except CollectError MailboxSnapshot) : Sound (s.startCollect p o opened) := by
  have declined (out : Collection) (e : CollectError) : Sound (s.decline p out e) :=
    ⟨sound.lawful, sound.locked, sound.ready⟩
  unfold System.startCollect
  simp only
  split_ifs with invalid busy
  · exact declined _ _
  · exact declined _ _
  · cases opened with
    | error e => exact declined _ _
    | ok snapshot =>
      simp only
      split_ifs with noEpoch refused
      · exact declined _ _
      · exact declined _ _
      · have free : s.holder o.source = none := by simpa using busy
        refine ⟨sound.lawful, fun {q name} working => ?_, fun q => ?_⟩
        · by_cases mine : q = p
          · subst mine
            simp only [Function.update_self, Phase.source] at working
            cases working
            exact Function.update_self _ _ _
          · simp only [Function.update_of_ne mine] at working
            have held := sound.locked working
            have other : name ≠ o.source := by
              rintro rfl
              cases held.symm.trans free
            simpa only [Function.update_of_ne other] using held
        · by_cases mine : q = p
          · subst mine
            simp only [Function.update_self]
            simpa [Ready] using invalid
          · simp only [Function.update_of_ne mine]
            exact sound.ready q

/-- After its registration a source has a window, or nothing is new, or UIDs are missing. -/
theorem Sound.initialized (lawful : Lawful db') (touches : Touches o.source s.db db')
    (accepted : o.accepted = true) (busy : (s.phase p).source = some o.source)
    (source : out.source = o.source) (checkpointed : Checkpointed db' o snapshot out) :
    Sound (System.initialized p o snapshot out { s with db := db' }) := by
  obtain ⟨low, high⟩ := accepted_batch accepted
  unfold System.initialized
  simp only [UInt64.le_iff_toNat_le, UInt32.toNat_toUInt64]
  split_ifs with regressed nothing
  · exact sound.goto lawful touches busy rfl source
  · rw [← source] at touches busy
    exact sound.finish lawful touches busy
  · have before : out.lastUID.toNat < snapshot.uidNext.toNat := Nat.lt_of_not_le regressed
    have bound := window_toNat before low high
    rw [← UInt64.toNat_inj, UInt32.toNat_toUInt64, bound] at nothing
    refine sound.goto lawful touches busy rfl ⟨source, checkpointed, ?_, ?_, bound⟩
    · rw [bound]
      omega
    · rw [bound]
      omega

theorem Sound.runInitialize : Sound (s.runInitialize p ending) := by
  cases phase : s.phase p with
  | selected o snapshot =>
    have busy : (s.phase p).source = some o.source := by rw [phase, Phase.source]
    have accepted : o.accepted = true := sound.ready_at phase
    unfold System.runInitialize
    rw [phase]
    rcases outcome : initializeSource o snapshot s.db with ⟨lastUID, (e | -) | db'⟩ <;>
      simp only [outcome]
    · exact sound.stop busy
    · exact sound.goto sound.lawful (touches_refl _ _) busy rfl rfl
    · obtain ⟨row, registered, last, grows⟩ := initializeSource_ok outcome
      have lawful := sound.lawful.register registered grows
      refine sound.conclude lawful grows.touches busy ?_
      exact sound.initialized lawful grows.touches accepted busy rfl
        (grows.checkpointed registered.epoch last)
  | _ =>
    unfold System.runInitialize
    rwa [phase]

theorem Sound.runAlert : Sound (s.runAlert p ending) := by
  cases phase : s.phase p with
  | alerting o snapshot kind out =>
    have source : out.source = o.source := sound.ready_at phase
    have busy : (s.phase p).source = some out.source := by rw [phase, Phase.source, source]
    unfold System.runAlert
    rw [phase]
    simp only
    split
    · exact sound.stop busy
    next db' alerted =>
      have lawful := sound.lawful.alert alerted
      have touches : Touches out.source s.db db' := by
        rw [source]
        rcases collectorAlert_ok alerted with rfl | ⟨row, -, -, grows⟩
        · exact touches_refl _ _
        · exact grows.touches
      exact sound.conclude lawful touches busy (sound.finish lawful touches busy)
  | _ =>
    unfold System.runAlert
    rwa [phase]

theorem Sound.runMetadata (answer : Option (List MailMetadata)) :
    Sound (s.runMetadata p answer) := by
  cases phase : s.phase p with
  | windowed o snapshot last out =>
    obtain ⟨source, checkpointed, low, high, -⟩ := sound.ready_at phase
    have busy : (s.phase p).source = some out.source := by rw [phase, Phase.source, source]
    unfold System.runMetadata
    rw [phase]
    simp only
    split
    · exact sound.stop busy
    next listed =>
      split_ifs with exceeds valid
      · exact sound.stop busy
      · obtain ⟨sorted, bounds⟩ := validMetadata_sound (byUID_sorted listed) valid
        refine sound.goto sound.lawful (touches_refl _ _) busy (by rw [Phase.source, source])
          ⟨source, checkpointed, low.le, high, fun m member => .inl member, fun m member => ?_,
            sorted⟩
        obtain ⟨first, inside⟩ := bounds m member
        refine ⟨?_, inside⟩
        have small := snapshot.uidNext.toNat_lt
        rw [requested, UInt32.le_iff_toNat_le, UInt32.toNat_add, UInt32.toNat_one] at first
        rw [UInt32.lt_iff_toNat_lt]
        omega
      · exact sound.stop busy
  | _ =>
    unfold System.runMetadata
    rwa [phase]

theorem Sound.runCheckpoint : Sound (s.runCheckpoint p ending) := by
  unfold System.runCheckpoint
  split
  next o snapshot last listed out phase =>
    obtain ⟨source, ⟨row, found, -⟩, -⟩ := sound.ready_at phase
    have busy : (s.phase p).source = some out.source := by rw [phase, Phase.source, source]
    split
    · exact sound.stop busy
    next db' moved =>
      have lawful : Lawful db' := by
        rw [checkpoint_ok moved]
        exact sound.lawful.advance _ _
      have touches : Touches out.source s.db db' := by
        rw [checkpoint_ok moved, source]
        exact (updateSource_grows found _).touches
      exact sound.conclude lawful touches busy (sound.finish lawful touches busy)
  · exact sound

theorem Sound.abandon (e : CollectError) : Sound (s.abandon p e) := by
  have ready := sound.ready p
  unfold System.abandon
  split
  · exact sound
  next o snapshot phase =>
    exact sound.stop (by rw [phase, Phase.source])
  all_goals
    next phase =>
      rw [phase] at ready
      refine sound.stop ?_
      rw [phase, Phase.source]
      first
        | rw [ready.1]
        | rw [ready]

theorem Sound.publish (t : Tables) (c : Capacity) : Sound (s.publish t c) := by
  unfold System.publish
  split
  · refine ⟨fun name row found => ?_, sound.locked, fun q => ?_⟩
    · obtain ⟨records, bounded, bytes, limited⟩ := sound.lawful name row found
      exact ⟨records, bounded, bytes, limited⟩
    · exact (sound.ready q).mono (fun _ _ => rfl) (List.Subset.refl _)
  · exact sound

variable [Reader]

omit sound in
theorem saveCollected_moves {m : MailMetadata} {raw : Bytes} {outcome : Outcome} {id : FeedbackID}
    {old : Source} (found : s.db.sources o.source = some old)
    (saved : saveCollected o snapshot.uidValidity m raw outcome id s.db = .ok db') :
    ∃ row, db'.sources = Function.update s.db.sources o.source (some row) ∧
      row.uidValidity = old.uidValidity ∧ row.lastUID = m.uid ∧ Touches o.source s.db db' ∧
      Received db' o snapshot m := by
  rcases saveCollected_ok saved with ⟨known, rfl⟩ | ⟨-, row, feedback, stored, -, -, grows, -⟩
  · have grows := updateSource_grows found fun row => { row with lastUID := m.uid }
    exact ⟨_, grows.sources, rfl, rfl, grows.touches, Received.mono known grows.touches.2⟩
  · cases found.symm.trans stored
    refine ⟨_, grows.sources, rfl, rfl, grows.touches, ?_⟩
    rw [Received, grows.receipts, List.map_append]
    exact List.mem_append_right _ (List.mem_singleton_self _)

theorem Sound.runSave (answer : BodyAnswer) (id : FeedbackID) :
    Sound (s.runSave p answer id ending) := by
  unfold System.runSave
  split
  next o snapshot last listed m rest out phase =>
    obtain ⟨source, ⟨old, found, epoch, -⟩, -, high, progress⟩ := sound.ready_at phase
    have busy : (s.phase p).source = some out.source := by rw [phase, Phase.source, source]
    split
    · exact sound.stop busy
    next outcome raw taken =>
      split
      · exact sound.stop busy
      next db' saved =>
        obtain ⟨row, sources, sameEpoch, lastUID, touches, received⟩ :=
          saveCollected_moves found saved
        obtain ⟨sameSource, sameUID⟩ := count_fields out m.uid outcome
        have lawful := sound.lawful.save taken saved
        have inside := (progress.ahead m List.mem_cons_self).2
        rw [UInt64.le_iff_toNat_le, UInt32.toNat_toUInt64] at inside
        refine sound.conclude lawful (source ▸ touches) busy ?_
        refine sound.goto lawful touches (source ▸ busy) rfl
          ⟨sameSource.trans source, ⟨row, ?_, sameEpoch.trans epoch, lastUID.trans sameUID.symm⟩,
            ?_, high, progress.save touches received⟩
        · rw [sources, Function.update_self]
        · rwa [sameUID]
  · exact sound

theorem Sound.step (event : Event) : Sound (s.step event) := by
  cases event with
  | start p o opened =>
    simp only [System.step]
    split
    next idle => exact sound.startCollect idle opened
    · exact sound
  | initializeSource p ending => exact sound.runInitialize
  | alert p ending => exact sound.runAlert
  | metadata p answer => exact sound.runMetadata answer
  | save p answer id ending => exact sound.runSave answer id
  | checkpoint p ending => exact sound.runCheckpoint
  | abandon p e => exact sound.abandon e
  | publish t c => exact sound.publish t c

theorem Sound.run (events : List Event) : Sound (s.run events) := by
  induction events generalizing s with
  | nil => exact sound
  | cons event rest ih => exact ih (sound.step event)

end Steps

section Commits

variable {s : System} {event : Event} {db' : Database}

theorem initialized_db (p : ProcessID) (o : CollectOptions) (snapshot : MailboxSnapshot)
    (out : Collection) (s : System) : (s.initialized p o snapshot out).db = s.db := by
  unfold System.initialized
  simp only
  split_ifs <;> rfl

theorem startCollect_db (p : ProcessID) (o : CollectOptions)
    (opened : Except CollectError MailboxSnapshot) (s : System) :
    (s.startCollect p o opened).db = s.db := by
  unfold System.startCollect
  simp only
  split_ifs
  · rfl
  · rfl
  · cases opened with
    | error e => rfl
    | ok snapshot =>
      simp only
      split_ifs <;> rfl

variable [Reader]

inductive Moved (s : System) : Event → Database → Prop
  | initialized {p : ProcessID} {ending : Ending} {o : CollectOptions}
      {snapshot : MailboxSnapshot} {lastUID : UInt32} {db' : Database}
      (phase : s.phase p = .selected o snapshot)
      (ready : initializeSource o snapshot s.db = (lastUID, .ok db')) :
      Moved s (.initializeSource p ending) db'
  | alerted {p : ProcessID} {ending : Ending} {o : CollectOptions} {snapshot : MailboxSnapshot}
      {kind : AlertKind} {out : Collection} {db' : Database}
      (phase : s.phase p = .alerting o snapshot kind out)
      (alerted : collectorAlert o.source snapshot.uidValidity kind s.db = .ok db') :
      Moved s (.alert p ending) db'
  | saved {p : ProcessID} {answer : BodyAnswer} {id : FeedbackID} {ending : Ending}
      {o : CollectOptions} {snapshot : MailboxSnapshot} {last : UInt64}
      {listed rest : List MailMetadata} {m : MailMetadata} {out : Collection} {outcome : Outcome}
      {raw : Bytes} {db' : Database}
      (phase : s.phase p = .collecting o snapshot last listed (m :: rest) out)
      (taken : collected m answer = .ok (outcome, raw))
      (saved : saveCollected o snapshot.uidValidity m raw outcome id s.db = .ok db') :
      Moved s (.save p answer id ending) db'
  | checkpointed {p : ProcessID} {ending : Ending} {o : CollectOptions}
      {snapshot : MailboxSnapshot} {last : UInt64} {listed : List MailMetadata} {out : Collection}
      {db' : Database} (phase : s.phase p = .collecting o snapshot last listed [] out)
      (moved : checkpoint o.source last s.db = .ok db') : Moved s (.checkpoint p ending) db'
  | published {t : Tables} {c : Capacity} (more : s.db.feedback.reports ⊆ t.reports) :
      Moved s (.publish t c) (s.db.addReports t c more)

/-- A transaction that was tried has been committed, or not. -/
theorem Moved.conclude {p : ProcessID} {ending : Ending} {out : Collection}
    {after : System → System} (moved : Moved s event db') (kept : ∀ s', (after s').db = s'.db) :
    (s.conclude p ending db' out after).db = s.db ∨
      Moved s event (s.conclude p ending db' out after).db := by
  cases ending with
  | done =>
    rw [System.conclude, kept]
    exact .inr moved
  | refused => exact .inl rfl
  | lost => exact .inr moved

/-- A step leaves the tables as they are, or it commits. -/
theorem step_moved (s : System) (event : Event) :
    (s.step event).db = s.db ∨ Moved s event (s.step event).db := by
  cases event with
  | start p o opened =>
    simp only [System.step]
    split
    · exact .inl (startCollect_db p o opened s)
    · exact .inl rfl
  | initializeSource p ending =>
    simp only [System.step, System.runInitialize]
    split
    next o snapshot phase =>
      rcases outcome : initializeSource o snapshot s.db with ⟨lastUID, (e | -) | db'⟩ <;>
        simp only
      · exact .inl rfl
      · exact .inl rfl
      · exact (Moved.initialized phase outcome).conclude (initialized_db p o snapshot _)
    · exact .inl rfl
  | alert p ending =>
    simp only [System.step, System.runAlert]
    split
    next o snapshot kind out phase =>
      split
      · exact .inl rfl
      next db' alerted => exact (Moved.alerted phase alerted).conclude fun _ => rfl
    · exact .inl rfl
  | metadata p answer =>
    simp only [System.step, System.runMetadata]
    split
    · split
      · exact .inl rfl
      · split_ifs <;> exact .inl rfl
    · exact .inl rfl
  | save p answer id ending =>
    simp only [System.step, System.runSave]
    split
    next o snapshot last listed m rest out phase =>
      split
      · exact .inl rfl
      next outcome raw taken =>
        split
        · exact .inl rfl
        next db' saved => exact (Moved.saved phase taken saved).conclude fun _ => rfl
    · exact .inl rfl
  | checkpoint p ending =>
    simp only [System.step, System.runCheckpoint]
    split
    next o snapshot last listed out phase =>
      split
      · exact .inl rfl
      next db' moved => exact (Moved.checkpointed phase moved).conclude fun _ => rfl
    · exact .inl rfl
  | abandon p e =>
    simp only [System.step, System.abandon]
    split <;> exact .inl rfl
  | publish t c =>
    simp only [System.step, System.publish]
    split
    next more => exact .inr (.published more)
    · exact .inl rfl

end Commits

section Results

def Phase.task : Phase → Option (CollectOptions × MailboxSnapshot)
  | .idle => none
  | .selected o snapshot => some (o, snapshot)
  | .alerting o snapshot _ _ => some (o, snapshot)
  | .windowed o snapshot _ _ => some (o, snapshot)
  | .collecting o snapshot _ _ _ _ => some (o, snapshot)

/-- How a step may change a source: its checkpoint goes on within the mailbox of the run that
moves it, or a new epoch is accepted. -/
inductive Advance (s : System) (name : Bytes) (row : Source) : Source → Prop
  | kept {row' : Source} (epoch : row'.uidValidity = row.uidValidity)
      (lastUID : row'.lastUID = row.lastUID) : Advance s name row row'
  | moved {row' : Source} {p : ProcessID} {o : CollectOptions} {snapshot : MailboxSnapshot}
      (task : (s.phase p).task = some (o, snapshot)) (source : o.source = name)
      (epoch : row'.uidValidity = row.uidValidity)
      (current : snapshot.uidValidity = row.uidValidity) (forward : row.lastUID ≤ row'.lastUID)
      (bounded : row'.lastUID.toNat ≤ snapshot.uidNext.toNat - 1) : Advance s name row row'
  | reset {p : ProcessID} {o : CollectOptions} {snapshot : MailboxSnapshot}
      (phase : s.phase p = .selected o snapshot) (source : o.source = name)
      (differs : row.uidValidity ≠ snapshot.uidValidity)
      (accepted : o.acceptUIDValidity = snapshot.uidValidity) :
      Advance s name row { row with uidValidity := snapshot.uidValidity, lastUID := 0 }

variable {s : System} {event : Event} {db db' : Database} {name : Bytes} {row new : Source}
variable {p : ProcessID} {o : CollectOptions} {snapshot : MailboxSnapshot} {last : UInt64}
variable {listed todo : List MailMetadata} {out : Collection}

theorem Advance.refl (s : System) (name : Bytes) (row : Source) : Advance s name row row :=
  .kept rfl rfl

theorem sources_cases {written : Bytes}
    (sources : db'.sources = Function.update db.sources written (some new))
    (found : db.sources name = some row) :
    written = name ∧ db'.sources name = some new ∨ db'.sources name = some row := by
  rw [sources]
  by_cases same : name = written
  · subst same
    exact .inl ⟨rfl, Function.update_self _ _ _⟩
  · rw [Function.update_of_ne same]
    exact .inr found

/-- A message behind the checkpoint is received. -/
theorem ready_listed (ready : Ready db (.collecting o snapshot last listed todo out))
    (found : db.sources o.source = some row) {m : MailMetadata} (member : m ∈ listed)
    (behind : m.uid ≤ row.lastUID) : Received db o snapshot m := by
  obtain ⟨-, ⟨row', stored, -, lastUID⟩, -, -, progress⟩ := ready
  cases stored.symm.trans found
  rcases progress.received m member with waiting | received
  · have ahead := (progress.ahead m waiting).1
    rw [← lastUID] at ahead
    exact absurd ahead (UInt32.not_lt.mpr behind)
  · exact received

/-- What the server is asked for is the window, without a wrap. -/
theorem ready_window (ready : Ready db (.windowed o snapshot last out)) :
    (requested out.lastUID last).1.toNat = out.lastUID.toNat + 1 ∧
      (requested out.lastUID last).2.toNat = last.toNat ∧
      last.toNat = min (out.lastUID.toNat + o.batch.toNat) (snapshot.uidNext.toNat - 1) := by
  obtain ⟨-, -, low, high, bound⟩ := ready
  have small := snapshot.uidNext.toNat_lt
  refine ⟨?_, ?_, bound⟩
  · rw [requested, UInt32.toNat_add, UInt32.toNat_one]
    omega
  · rw [requested, UInt64.toNat_toUInt32]
    omega

variable [Reader]

/-- The receipt stands for a body that was read and for a report with its digest. -/
def Imports (event : Event) (db : Database) (r : Receipt) : Prop :=
  ∃ p id ending raw, event = .save p (.present raw) id ending ∧ r.reportedSize = raw.length ∧
    ∃ f ∈ db.feedback.reports, r.feedback = some f.id ∧ f.sha256 = Reader.digest raw

theorem Moved.advance (sound : Sound s) (moved : Moved s event db')
    (found : s.db.sources name = some row) :
    ∃ row', db'.sources name = some row' ∧ Advance s name row row' := by
  cases moved with
  | initialized phase ready =>
    obtain ⟨new, registered, -, grows⟩ := initializeSource_ok ready
    rcases sources_cases grows.sources found with ⟨rfl, after⟩ | after
    · refine ⟨new, after, ?_⟩
      cases registered with
      | created none => cases none.symm.trans found
      | found old epoch =>
        cases old.symm.trans found
        exact .refl s _ row
      | reset old differs accepted =>
        cases old.symm.trans found
        exact .reset phase rfl differs accepted
    · exact ⟨row, after, .refl s _ row⟩
  | alerted phase alerted =>
    rcases collectorAlert_ok alerted with rfl | ⟨old, stored, -, grows⟩
    · exact ⟨row, found, .refl s _ row⟩
    · rcases sources_cases grows.sources found with ⟨rfl, after⟩ | after
      · cases stored.symm.trans found
        exact ⟨_, after, .kept rfl rfl⟩
      · exact ⟨row, after, .refl s _ row⟩
  | @saved p answer id ending o snapshot last listed rest m out outcome raw _ phase taken saved =>
    obtain ⟨-, ⟨old, stored, epoch, same⟩, -, high, progress⟩ := sound.ready_at phase
    obtain ⟨new, sources, sameEpoch, lastUID, -⟩ := saveCollected_moves stored saved
    rcases sources_cases sources found with ⟨rfl, after⟩ | after
    · cases stored.symm.trans found
      obtain ⟨ahead, inside⟩ := progress.ahead m List.mem_cons_self
      rw [UInt64.le_iff_toNat_le, UInt32.toNat_toUInt64] at inside
      have task : (s.phase p).task = some (o, snapshot) := by rw [phase, Phase.task]
      refine ⟨new, after, .moved task rfl sameEpoch epoch.symm ?_ ?_⟩
      · rw [same, lastUID]
        exact UInt32.le_of_lt ahead
      · rw [lastUID]
        omega
    · exact ⟨row, after, .refl s _ row⟩
  | @checkpointed p ending o snapshot last listed out _ phase moved =>
    obtain ⟨-, ⟨old, stored, epoch, same⟩, low, high, -⟩ := sound.ready_at phase
    have grows := updateSource_grows stored fun row => { row with lastUID := last.toUInt32 }
    rw [← checkpoint_ok moved] at grows
    rcases sources_cases grows.sources found with ⟨rfl, after⟩ | after
    · cases stored.symm.trans found
      have small := snapshot.uidNext.toNat_lt
      have exact' : last.toUInt32.toNat = last.toNat := by
        rw [UInt64.toNat_toUInt32]
        omega
      have task : (s.phase p).task = some (o, snapshot) := by rw [phase, Phase.task]
      refine ⟨_, after, .moved task rfl rfl epoch.symm ?_ ?_⟩
      · rw [UInt32.le_iff_toNat_le, exact', same]
        exact low
      · rw [exact']
        omega
    · exact ⟨row, after, .refl s _ row⟩
  | published more => exact ⟨row, found, .refl s _ row⟩

/-- Also when a run moves the checkpoint past a message that it has listed. -/
theorem Moved.received (sound : Sound s) (moved : Moved s event db')
    (phase : s.phase p = .collecting o snapshot last listed todo out)
    (found : db'.sources o.source = some row) {m : MailMetadata} (member : m ∈ listed)
    (behind : m.uid ≤ row.lastUID) : Received db' o snapshot m := by
  have ready := sound.ready_at phase
  -- the commit of another process is about another source
  have others {q : ProcessID} {written : Bytes} (different : p ≠ q)
      (busy : (s.phase q).source = some written) (touches : Touches written s.db db') :
      Received db' o snapshot m := by
    have ready := sound.ready_other different busy touches
    rw [phase] at ready
    exact ready_listed ready found member behind
  cases moved with
  | @initialized q _ o' _ _ _ phase' initialized =>
    have different : p ≠ q := by
      rintro rfl
      cases phase.symm.trans phase'
    obtain ⟨row', -, -, grows⟩ := initializeSource_ok initialized
    exact others different (by rw [phase', Phase.source]) grows.touches
  | @alerted q _ o' _ _ _ _ phase' alerted =>
    have different : p ≠ q := by
      rintro rfl
      cases phase.symm.trans phase'
    rcases collectorAlert_ok alerted with rfl | ⟨row', -, -, grows⟩
    · exact ready_listed ready found member behind
    · exact others different (by rw [phase', Phase.source]) grows.touches
  | @saved q _ _ _ o' snapshot' last' listed' rest m' out' _ _ _ phase' taken saved =>
    obtain ⟨-, ⟨old, stored, -⟩, -, -, progress⟩ := sound.ready_at phase'
    obtain ⟨row', sources, -, lastUID, touches, received⟩ := saveCollected_moves stored saved
    by_cases different : p = q
    · subst different
      cases phase.symm.trans phase'
      rw [sources, Function.update_self] at found
      obtain rfl := Option.some.inj found
      rcases progress.received m member with waiting | old
      · rcases List.mem_cons.mp waiting with rfl | later
        · exact received
        · have ahead := (List.pairwise_cons.mp progress.sorted).1 m later
          rw [← lastUID] at ahead
          exact absurd ahead (UInt32.not_lt.mpr behind)
      · exact old.mono touches.2
    · exact others different (by rw [phase', Phase.source]) touches
  | @checkpointed q _ o' _ last' _ _ _ phase' moved =>
    obtain ⟨-, ⟨old, stored, -⟩, -, -, progress⟩ := sound.ready_at phase'
    have grows := updateSource_grows stored fun row => { row with lastUID := last'.toUInt32 }
    rw [← checkpoint_ok moved] at grows
    by_cases different : p = q
    · subst different
      cases phase.symm.trans phase'
      rcases progress.received m member with none | old
      · cases none
      · exact old.mono grows.touches.2
    · exact others different (by rw [phase', Phase.source]) grows.touches
  | published more =>
    exact ready_listed (ready.mono (fun _ _ => rfl) (List.Subset.refl _)) found member behind

/-- A receipt that is new belongs to the message that was saved. -/
theorem Moved.receipts (moved : Moved s event db') :
    s.db.receipts ⊆ db'.receipts ∧ ∀ r ∈ db'.receipts, r ∈ s.db.receipts ∨
      (r.outcome = .imported → Imports event db' r) := by
  have kept {db' : Database} {P : Receipt → Prop} (same : db'.receipts = s.db.receipts) :
      s.db.receipts ⊆ db'.receipts ∧ ∀ r ∈ db'.receipts, r ∈ s.db.receipts ∨ P r := by
    rw [same]
    exact ⟨List.Subset.refl _, fun r member => .inl member⟩
  cases moved with
  | initialized phase ready =>
    obtain ⟨row, -, -, grows⟩ := initializeSource_ok ready
    exact kept (by rw [grows.receipts, List.append_nil])
  | alerted phase alerted =>
    rcases collectorAlert_ok alerted with rfl | ⟨row, -, -, grows⟩
    · exact kept rfl
    · exact kept (by rw [grows.receipts, List.append_nil])
  | @saved p answer id ending o snapshot last listed rest m out outcome raw _ phase taken saved =>
    rcases saveCollected_ok saved with ⟨-, rfl⟩ | ⟨-, row, feedback, -, -, -, grows, report⟩
    · refine kept ?_
      unfold Database.updateSource
      split <;> rfl
    · refine ⟨grows.touches.2, fun r member => ?_⟩
      rw [grows.receipts] at member
      refine (List.mem_append.mp member).imp_right fun new imported => ?_
      obtain rfl := List.mem_singleton.mp new
      rcases collected_ok taken with ⟨-, rfl, size⟩ | ⟨other, -⟩
      · obtain ⟨f, inside, named, evidence⟩ := report imported
        exact ⟨p, id, ending, raw, rfl, size, f, inside, named,
          congrArg (fun key => key.2.2) evidence⟩
      · exact absurd imported other
  | @checkpointed p ending o snapshot last listed out _ phase moved =>
    refine kept ?_
    rw [checkpoint_ok moved]
    unfold Database.updateSource
    split <;> rfl
  | published more => exact kept rfl

/-- A message that is received already is not charged again. -/
theorem Moved.recollected {m : MailMetadata} {rest : List MailMetadata} {answer : BodyAnswer}
    {id : FeedbackID} {ending : Ending} (moved : Moved s (.save p answer id ending) db')
    (phase : s.phase p = .collecting o snapshot last listed (m :: rest) out)
    (received : Received s.db o snapshot m) :
    db'.receipts = s.db.receipts ∧ db'.alerts = s.db.alerts ∧
      ∀ name row, s.db.sources name = some row → ∃ row', db'.sources name = some row' ∧
        row'.records = row.records ∧ row'.storedBytes = row.storedBytes := by
  cases moved with
  | saved phase' taken saved =>
    cases phase.symm.trans phase'
    rcases saveCollected_ok saved with ⟨-, rfl⟩ | ⟨new, -⟩
    · unfold Database.updateSource
      split
      next old stored =>
        refine ⟨rfl, rfl, fun name row found => ?_⟩
        have grows := setSource_grows s.db o.source { old with lastUID := m.uid }
        rcases sources_cases grows.sources found with ⟨rfl, after⟩ | after
        · cases stored.symm.trans found
          exact ⟨_, after, rfl, rfl⟩
        · exact ⟨row, after, rfl, rfl⟩
      · exact ⟨rfl, rfl, fun name row found => ⟨row, found, rfl, rfl⟩⟩
    · exact absurd received new

/-- For every sequence of calls, with errors, crashes and lost commits at any step. -/
theorem collection_exactly_once (start : Sound s) (events : List Event) :
    ((s.run events).db.receipts.map Receipt.key).Nodup ∧
      (∀ name row, (s.run events).db.sources name = some row →
        Accounted (s.run events).db name row) ∧
      (∀ event name row, (s.run events).db.sources name = some row →
        ∃ row', ((s.run events).step event).db.sources name = some row' ∧
          Advance (s.run events) name row row') ∧
      (∀ event p o snapshot last listed todo out row',
        (s.run events).phase p = .collecting o snapshot last listed todo out →
        ((s.run events).step event).db.sources o.source = some row' →
        ∀ m ∈ listed, m.uid ≤ row'.lastUID →
          Received ((s.run events).step event).db o snapshot m) ∧
      (∀ event, (s.run events).db.receipts ⊆ ((s.run events).step event).db.receipts ∧
        ∀ r ∈ ((s.run events).step event).db.receipts, r ∈ (s.run events).db.receipts ∨
          (r.outcome = .imported → Imports event ((s.run events).step event).db r)) ∧
      (∀ p answer id ending o snapshot last listed m rest out,
        (s.run events).phase p = .collecting o snapshot last listed (m :: rest) out →
        Received (s.run events).db o snapshot m →
        let after := ((s.run events).step (.save p answer id ending)).db
        after.receipts = (s.run events).db.receipts ∧ after.alerts = (s.run events).db.alerts ∧
          ∀ name row, (s.run events).db.sources name = some row →
            ∃ row', after.sources name = some row' ∧ row'.records = row.records ∧
              row'.storedBytes = row.storedBytes) ∧
      ∀ p o snapshot last out, (s.run events).phase p = .windowed o snapshot last out →
        (requested out.lastUID last).1.toNat = out.lastUID.toNat + 1 ∧
          (requested out.lastUID last).2.toNat = last.toNat ∧
          last.toNat = min (out.lastUID.toNat + o.batch.toNat) (snapshot.uidNext.toNat - 1) := by
  have sound := start.run events
  generalize s.run events = s at sound
  refine ⟨s.db.receiptKey, sound.lawful, ?_, ?_, ?_, ?_, ?_⟩
  · intro event name row found
    rcases step_moved s event with same | moved
    · exact ⟨row, same ▸ found, .refl s name row⟩
    · exact moved.advance sound found
  · intro event p o snapshot last listed todo out row' phase found m member behind
    rcases step_moved s event with same | moved
    · rw [same] at found ⊢
      exact ready_listed (sound.ready_at phase) found member behind
    · exact moved.received sound phase found member behind
  · intro event
    rcases step_moved s event with same | moved
    · rw [same]
      exact ⟨List.Subset.refl _, fun r member => .inl member⟩
    · exact moved.receipts
  · intro p answer id ending o snapshot last listed m rest out phase received after
    rcases step_moved s (.save p answer id ending) with same | moved
    · simp only [after, same, true_and]
      exact fun name row found => ⟨row, found, rfl, rfl⟩
    · exact moved.recollected phase received
  · intro p o snapshot last out phase
    exact ready_window (sound.ready_at phase)

end Results

section Sample

attribute [local instance] sampleReader

def emptyDatabase : Database where
  sources _ := none
  receipts := []
  alerts := []
  feedback := emptyTables
  capacity := ⟨0, 0⟩
  receiptKey := List.nodup_nil
  alertKey := List.nodup_nil
  receiptSource := List.forall_mem_nil _
  alertSource := List.forall_mem_nil _
  receiptReport := List.forall_mem_nil _

theorem emptyDatabase_sound : Sound { db := emptyDatabase } :=
  ⟨nofun, nofun, fun _ => True.intro⟩

def sampleOptions (accept : UInt32) : CollectOptions :=
  { source := ascii "dsn", identitySHA256 := List.replicate 64 0x61, batch := 10,
    acceptUIDValidity := accept }

/-- Two messages, of which the second is saved by a commit whose answer is lost. -/
def interruptedEvents : List Event :=
  [.start 0 (sampleOptions 0) (.ok ⟨7, 9⟩), .initializeSource 0 .done,
    .metadata 0 (some [⟨5, 2⟩, ⟨3, 1⟩]), .save 0 (.present [65]) 1 .done,
    .save 0 (.present [65, 66]) 2 .lost]

/-- The epoch changes, and the old one is accepted again. -/
def reacceptedEvents : List Event :=
  interruptedEvents ++
    [.start 1 (sampleOptions 0) (.ok ⟨8, 9⟩), .initializeSource 1 .done, .alert 1 .done,
      .start 1 (sampleOptions 8) (.ok ⟨8, 9⟩), .initializeSource 1 .done, .abandon 1 .database,
      .start 2 (sampleOptions 7) (.ok ⟨7, 9⟩), .initializeSource 2 .done,
      .metadata 2 (some [⟨3, 1⟩, ⟨5, 2⟩]), .save 2 (.present [65]) 3 .done,
      .save 2 (.present [65, 66]) 4 .done, .checkpoint 2 .done]

theorem collection_exactly_once_of_reaccepted :
    (System.run { db := emptyDatabase } reacceptedEvents).db.sources (ascii "dsn") =
        some ⟨List.replicate 64 0x61, 7, 8, 3, 3⟩ ∧
      ((System.run { db := emptyDatabase } reacceptedEvents).db.receipts.map
        Receipt.key).Nodup ∧
      ∀ name row, (System.run { db := emptyDatabase } reacceptedEvents).db.sources name = some row →
        Accounted (System.run { db := emptyDatabase } reacceptedEvents).db name row :=
  ⟨by decide +kernel, (collection_exactly_once emptyDatabase_sound reacceptedEvents).1,
    (collection_exactly_once emptyDatabase_sound reacceptedEvents).2.1⟩

end Sample

end RelayTale.Feedback.Collector
