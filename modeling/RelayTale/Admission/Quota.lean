import RelayTale.Admission.Interleaving
import RelayTale.Foundation.Sums

/-!
# Limits are never oversold

A claim counts connections and reads what is left of the quotas before it
commits. Under its locks nothing can be reserved on the same account in between,
so the limits hold with the new attempt included, at the commit and at every
later reading of the clock. Reservations are only ever added.
-/

namespace RelayTale.Admission

open Locking Sums
open Queue (Message)

section Sums

def unitsIn (span clock : Int) (rows : List (AttemptID × Int × Nat)) : Nat :=
  ((rows.filter fun row => clock - span < row.2.1).map (·.2.2)).sum

theorem reserved_eq (span clock : Int) (attempts : List Usage) :
    reserved span clock attempts = unitsIn span clock (attempts.map Usage.reservation) := by
  unfold reserved unitsIn
  rw [List.filter_map, List.map_map]
  rfl

theorem unitsIn_cons (span clock : Int) (row : AttemptID × Int × Nat)
    (rows : List (AttemptID × Int × Nat)) :
    unitsIn span clock (row :: rows) ≤ unitsIn span clock rows + row.2.2 := by
  unfold unitsIn
  rw [List.filter_cons]
  split
  · simp only [List.map_cons, List.sum_cons]
    omega
  · omega

/-- The window only moves on. -/
theorem unitsIn_anti {span clock t : Int} (later : clock ≤ t)
    (rows : List (AttemptID × Int × Nat)) : unitsIn span t rows ≤ unitsIn span clock rows := by
  induction rows with
  | nil => exact le_rfl
  | cons row rest ih =>
    unfold unitsIn at ih ⊢
    rw [List.filter_cons, List.filter_cons]
    by_cases inside : t - span < row.2.1
    · have before : clock - span < row.2.1 := by omega
      simp only [inside, before, decide_true, if_true, List.map_cons, List.sum_cons]
      omega
    · simp only [inside, decide_false, Bool.false_eq_true, if_false]
      split
      · simp only [List.map_cons, List.sum_cons]
        omega
      · exact ih

theorem groupReserved_eq (d : Catalog) (view : Store) (g : GroupID) (span clock : Int) :
    groupReserved d view g span clock =
      (d.providers.map fun q =>
        unitsIn span clock (sharedReservations g (view (.provider q)))).sum := by
  unfold groupReserved
  congr 1
  refine List.map_congr_left fun q _ => ?_
  cases view (.provider q) with
  | none => rfl
  | some p =>
    simp only [Option.elim_some, sharedReservations]
    split
    · exact reserved_eq span clock p.attempts
    · rfl

end Sums

section Claim

variable [Primitives] {d : Catalog} {seen : List Store} {store after : Store} {id : MessageID}
variable {i : AdmitInput} {m m' : Message} {p shown : Provider} {counting admitting : Store}
variable {t : Int}

omit [Primitives] in
theorem connections_anti {q : ProviderID} {clock : Int} (later : clock ≤ t) (m : Message) :
    connections q t m ≤ connections q clock m := by
  unfold connections
  split
  next live =>
    rw [if_pos]
    cases lease : m.leaseExpiresAt with
    | none => simp [lease] at live
    | some until_ =>
      rw [lease] at live
      simp only [Option.any_some, decide_eq_true_eq] at live ⊢
      omega
  · exact Nat.zero_le _

theorem claim_adds_connection {entries : List Queue.Entry} {c : Queue.ClaimInput}
    (committed : Queue.claim entries c m = .ok m') (q : ProviderID) (clock : Int) :
    connections q clock m' ≤ 1 := by
  obtain ⟨rfl, -, -, -, fresh⟩ := Queue.claim_ok committed
  have none : (m.attempts.countP fun a => a.provider = q ∧ a.result = .pending) = 0 :=
    List.countP_eq_zero.mpr fun a member => by simp [(fresh a member).2.2]
  unfold connections
  split
  · simp only [Queue.claimed, List.countP_cons, none]
    split <;> omega
  · exact Nat.zero_le _

omit [Primitives] in
theorem limit_kept {limit used units now : Nat} (room : (units : Int) ≤ (limit : Int) - used)
    (window : now ≤ used + units) : now ≤ limit := by omega

omit [Primitives] in
theorem quota_kept (later : i.quotaClock ≤ t) {units : Nat}
    (room : (units : Int) ≤ quotaAvailable i.quotaClock p) :
    (∀ limit, p.hourlyLimit = some limit →
      reserved hour t (p.reserve (i.usage units)).attempts ≤ limit) ∧
    ∀ limit, p.dailyLimit = some limit →
      reserved (24 * hour) t (p.reserve (i.usage units)).attempts ≤ limit := by
  have window (span : Int) : reserved span t (p.reserve (i.usage units)).attempts ≤
      reserved span i.quotaClock p.attempts + units := by
    rw [reserved_eq, reserved_eq]
    exact (unitsIn_cons _ _ _ _).trans (Nat.add_le_add_right (unitsIn_anti later _) _)
  constructor
  · intro limit limited
    refine limit_kept (room.trans ?_) (window hour)
    exact (min_le_left _ _).trans (by rw [limited]; rfl)
  · intro limit limited
    refine limit_kept (room.trans ?_) (window (24 * hour))
    exact (min_le_right _ _).trans (by rw [limited]; rfl)

variable (claimed : Claimed d (Shows agree) id i seen store after m m' p shown counting admitting)

include claimed

theorem Claimed.active_le (earlier : ∀ view ∈ seen, Earlier view store)
    (later : i.activeClock ≤ t) : active d after i.provider t ≤ p.maxConnections := by
  have inside : (Resource.provider i.provider, Mode.exclusive) ∈ claimLocks id i :=
    Set.mem_insert _ _
  have same : reservationsOf counting i.provider = reservationsOf store i.provider :=
    congrArg (Option.map Provider.reservations) (claimed.counts.2 _ inside).1
  have calm := (earlier counting claimed.counts.1).calm same
  have started : active d after i.provider t ≤ active d store i.provider t + 1 := by
    refine sum_le_sum_add d.messagesNodup id (fun target other => ?_) ?_
    · rw [claimed.messages, if_neg other]
    · rw [claimed.messages, if_pos rfl]
      exact (claim_adds_connection claimed.performed i.provider t).trans
        (Nat.le_add_left _ _)
  have counted : active d store i.provider t ≤ active d counting i.provider i.activeClock := by
    refine List.sum_le_sum fun target _ => (calm target t).trans ?_
    cases counting.message target with
    | none => exact le_rfl
    | some n => exact connections_anti later n
  have := claimed.connections
  omega

/-- The recipients of the claim fit into what is left. -/
theorem Claimed.units_le :
    ((Queue.picks (store (.table .policy)) (i.claimOf d admitting shown p) m).length : Int) ≤
      min (quotaAvailable i.quotaClock p) (sharedQuotaAvailable d admitting i.quotaClock p) := by
  have positive : 0 < remaining d admitting i.quotaClock shown := by
    have controlled := claimed.controlled
    simp only [AdmitInput.controlled, Bool.and_eq_true, decide_eq_true_eq] at controlled
    exact controlled.1
  have taken : (Queue.picks (store (.table .policy)) (i.claimOf d admitting shown p) m).length ≤
      (remaining d admitting i.quotaClock shown).toNat :=
    (List.length_take_le _ _).trans (Nat.min_le_left _ _)
  rw [claimed.shown_eq] at taken positive ⊢
  have := Int.toNat_of_nonneg positive.le
  unfold remaining at this taken
  omega

theorem Claimed.group_shown {g : GroupID} (joined : p.quotaGroup = some g) (span clock : Int) :
    admitting (.group g) = store (.group g) ∧
      groupReserved d admitting g span clock = groupReserved d store g span clock := by
  have inside : (Resource.group g, Mode.exclusive) ∈ withGroup p (claimLocks id i) := by
    rw [withGroup, joined]
    exact Set.mem_insert _ _
  obtain ⟨row, shared⟩ := claimed.admits.2 _ inside
  refine ⟨row, ?_⟩
  rw [groupReserved_eq, groupReserved_eq]
  congr 1
  exact List.map_congr_left fun q _ => by rw [shared q]

theorem Claimed.group_quota (later : i.quotaClock ≤ t) {g : GroupID} {group : Group}
    (joined : p.quotaGroup = some g) (found : after (.group g) = some group) :
    (group.hourlyLimit ≠ 0 → groupReserved d after g hour t ≤ group.hourlyLimit) ∧
    (group.dailyLimit ≠ 0 → groupReserved d after g (24 * hour) t ≤ group.dailyLimit) := by
  rw [claimed.reserved.groups] at found
  have room := claimed.units_le.trans (min_le_right _ _)
  have shared : sharedQuotaAvailable d admitting i.quotaClock p =
      min (groupLimitLeft group.hourlyLimit (groupReserved d store g hour i.quotaClock))
        (groupLimitLeft group.dailyLimit (groupReserved d store g (24 * hour) i.quotaClock)) := by
    obtain ⟨row, hourly⟩ := claimed.group_shown joined hour i.quotaClock
    obtain ⟨-, daily⟩ := claimed.group_shown joined (24 * hour) i.quotaClock
    rw [sharedQuotaAvailable, joined, Option.bind_some, row, found, hourly, daily]
    rfl
  rw [shared] at room
  have window (span : Int) : groupReserved d after g span t ≤
      groupReserved d store g span i.quotaClock + (Queue.picks (store (.table .policy))
        (i.claimOf d admitting shown p) m).length := by
    rw [groupReserved_eq, groupReserved_eq]
    refine sum_le_sum_add d.providersNodup i.provider (fun q other => ?_) ?_
    · rw [claimed.reserved.providers, if_neg other]
      exact unitsIn_anti later _
    · rw [claimed.reserved.providers, if_pos rfl, claimed.provider]
      simp only [sharedReservations, Option.elim_some]
      rw [if_pos joined, if_pos (show (p.reserve _).quotaGroup = some g from joined)]
      exact (unitsIn_cons _ _ _ _).trans (Nat.add_le_add_right (unitsIn_anti later _) _)
  constructor
  · intro limited
    refine limit_kept (room.trans ((min_le_left _ _).trans ?_)) (window hour)
    rw [groupLimitLeft, if_neg limited]
  · intro limited
    refine limit_kept (room.trans ((min_le_right _ _).trans ?_)) (window (24 * hour))
    rw [groupLimitLeft, if_neg limited]

end Claim

section Limits

variable [Primitives] (d : Catalog)

/-- The limits of a provider and of its group hold at this time. The loops over
the catalog miss no attempt and no reservation. -/
structure WithinLimits (store : Store) (q : ProviderID) (p : Provider) (t : Int) : Prop where
  connections : active d store q t ≤ p.maxConnections
  hourly : ∀ limit, p.hourlyLimit = some limit → reserved hour t p.attempts ≤ limit
  daily : ∀ limit, p.dailyLimit = some limit → reserved (24 * hour) t p.attempts ≤ limit
  shared : ∀ g group, p.quotaGroup = some g → store (.group g) = some group →
    (group.hourlyLimit ≠ 0 → groupReserved d store g hour t ≤ group.hourlyLimit) ∧
    (group.dailyLimit ≠ 0 → groupReserved d store g (24 * hour) t ≤ group.dailyLimit)
  listed : ∀ id m, store.message id = some m → m.attempts ≠ [] → id ∈ d.messages
  known : ∀ other, store (.provider other) ≠ none → other ∈ d.providers

variable {d} in
theorem Claimed.within {seen : List Store} {store after : Store} {id : MessageID} {i : AdmitInput}
    {m m' : Message} {p shown : Provider} {counting admitting : Store} {t : Int}
    (claimed : Claimed d (Shows agree) id i seen store after m m' p shown counting admitting)
    (consistent : Consistent d after) (earlier : ∀ view ∈ seen, Earlier view store)
    (active : i.activeClock ≤ t) (quota : i.quotaClock ≤ t) :
    WithinLimits d after i.provider (p.reserve (i.usage (Queue.picks (store (.table .policy))
      (i.claimOf d admitting shown p) m).length)) t := by
  obtain ⟨hourly, daily⟩ := quota_kept quota (claimed.units_le.trans (min_le_left _ _))
  refine ⟨claimed.active_le earlier active, hourly, daily, ?_, ?_, ?_⟩
  · exact fun g group joined found => claimed.group_quota quota joined found
  · intro id' n found attempted
    obtain ⟨a, member⟩ := List.exists_mem_of_ne_nil _ attempted
    exact consistent.listed (consistent.keyed found a member)
  · exact fun other exists_ => consistent.known (.inl exists_)

/-- In every interleaving a claim commits within all limits, its own attempt
included, and a reservation that was committed stays. -/
theorem limits_never_oversold (events : List (Event Request)) :
    (∀ entry ∈ (interleaving d events).log, ∀ id i, entry.request = .claim id i →
      ∀ t, i.activeClock ≤ t → i.quotaClock ≤ t → ∃ p m a,
        entry.after (.provider i.provider) = some p ∧
        entry.after (.table (.message id)) = some m ∧ a ∈ m.attempts ∧ a.id = i.attempt ∧
        (i.attempt, i.reserveClock, a.recipients.length) ∈ p.reservations ∧ a.recipients ≠ [] ∧
        WithinLimits d entry.after i.provider p t) ∧
    ∀ later q p, (interleaving d events).store (.provider q) = some p →
      ∃ p', (interleaving d (events ++ later)).store (.provider q) = some p' ∧
        p.reservations <:+ p'.reservations := by
  have history := interleaving_history d events
  refine ⟨fun entry member id i request t active quota => ?_, fun later q p found => ?_⟩
  · obtain ⟨-, earlier, -⟩ := interleaving_steps d events member
    have consistent := ((request_rule d).after (history.serial entry member)).1
    obtain ⟨m, m', p, shown, counting, admitting, claimed⟩ :=
      interleaving_claims d events member request
    obtain ⟨rfl, -, -, picked, -⟩ := Queue.claim_ok claimed.performed
    refine ⟨_, _, _, (claimed.reserved.providers _).trans (if_pos rfl),
      (claimed.messages id).trans (if_pos rfl), List.mem_cons_self, rfl, List.mem_cons_self, picked, ?_⟩
    exact claimed.within consistent earlier active quota
  · have reaches := (request_rule d).reaches history later
    rw [← interleaving_append] at reaches
    obtain ⟨p', after, grows⟩ := reaches.providers found
    exact ⟨p', after, grows.reservations⟩

end Limits

section Witness

attribute [local instance] Queue.plain

def shop : Catalog := ⟨[0], [1], by decide, by decide⟩

def admitAt (attempt : AttemptID) (token : Token) (now : Int) : AdmitInput where
  claim := Queue.claimAt 1 attempt token now
  healthEnabled := true
  eligibleClock := now
  activeClock := now
  quotaClock := now
  reserveClock := now
  probeClock := now

/-- A provider for two recipients an hour joins a group and is claimed for both. -/
def sharedClaim : List (Event Request) :=
  alone 0 (.createProvider 1 ⟨1, 60, 2, 0⟩ true) 3 ++ alone 1 (.createQuotaGroup 5 3 0) 3 ++
    alone 2 (.attachQuotaGroup 1 5 1) 5 ++ alone 3 (.queue (.enqueue 0 Queue.letter)) 5 ++
    alone 4 (.claim 0 (admitAt 10 7 1)) 15

theorem limits_never_oversold_of_sharedClaim :
    (∃ entry ∈ (interleaving shop sharedClaim).log, entry.request = .claim 0 (admitAt 10 7 1) ∧
      ∃ p, entry.after (.provider 1) = some p ∧ WithinLimits shop entry.after 1 p 1) ∧
    ∃ p p', (interleaving shop sharedClaim).store (.provider 1) = some p ∧
      (interleaving shop (sharedClaim ++ [.rollback 4])).store (.provider 1) = some p' ∧
      p.reservations <:+ p'.reservations := by
  obtain ⟨within, kept⟩ := limits_never_oversold shop sharedClaim
  constructor
  · have logged : (interleaving shop sharedClaim).log[4]?.map (·.request) =
        some (.claim 0 (admitAt 10 7 1)) := rfl
    obtain ⟨entry, found, request⟩ := Option.map_eq_some_iff.mp logged
    have member := List.mem_of_getElem? found
    obtain ⟨p, -, -, after, -, -, -, -, -, limits⟩ :=
      within entry member 0 (admitAt 10 7 1) request 1 le_rfl le_rfl
    exact ⟨entry, member, request, p, after, limits⟩
  · have stored : ((interleaving shop sharedClaim).store (.provider 1)).isSome = true := rfl
    obtain ⟨p, found⟩ := Option.isSome_iff_exists.mp stored
    obtain ⟨p', after, suffix⟩ := kept [.rollback 4] 1 p found
    exact ⟨p, p', found, after, suffix⟩

end Witness

end RelayTale.Admission
