import McpRuntime.Transport.Session

/-!
# The counts of the session leases

A lease is *outstanding* from the admission of its request until it is given back, or
until the request ends without giving it back.

* `leases_accounted`: the sessions and the reservations are never more than the limit;
  and in every run whose steps keep the leases (`KeepsLease`), the reservations that
  are counted are those that are outstanding, and each session counts the outstanding
  leases on it.
* A step loses a lease where the removal of an expired session raises or is cancelled
  in an admission that has taken one, where a completion cannot read the response, and
  where the SDK raises a `BaseException`; and it confuses leases where the SDK creates
  a session under an id that a request still holds, or where a lease that was given back
  is aborted once more on such a session. A reservation that is lost is counted after
  its request has ended, and takes the place of a session (`reservation_lost`).
-/

namespace McpRuntime.Transport

/-! ## What is outstanding -/

namespace SessionRequest

variable (q : SessionRequest)

/-- The request has its lease, and has neither given it back nor ended. -/
def outstanding : Bool :=
  match q.phase with
  | .removing _ _ | .serving => true
  | .aborting | .finishing | .ended => false

/-- The request holds a reservation. -/
def reserves : Bool :=
  match q.lease with
  | .reserved _ => q.outstanding
  | .none | .session _ => false

/-- The request holds a lease on the session. -/
def uses (sessionId : Text) : Bool := q.outstanding && q.lease = .session sessionId

end SessionRequest

namespace Leases

variable (s : Leases)

/-- The number of the outstanding reservations. -/
def reservations : ℕ := s.requests.countP SessionRequest.reserves

/-- The number of the outstanding leases on a session. -/
def leasesOn (sessionId : Text) : ℕ := s.requests.countP fun q => q.uses sessionId

/-- The counts are those of the outstanding leases. -/
structure Counted : Prop where
  pending : s.table.pending = s.reservations
  inFlight : ∀ p ∈ s.table.sessions, p.2.inFlight = s.leasesOn p.1

/-- The counts are right; an abort that waits has removed a session, and a request that
    is rejected has no lease. -/
structure Accounted : Prop extends Counted s where
  aborting : ∀ q ∈ s.requests, q.phase = .aborting → ∃ sessionId, q.lease = .session sessionId
  rejected : ∀ q ∈ s.requests, ∀ left, q.phase = .removing true left → q.lease = .none

end Leases

/-! ## Tables -/

namespace SessionTable

variable {t t' : SessionTable} {f : Text → ℕ → ℕ}

/-- The sessions of a table are sessions of another one, with their counts changed. -/
def Adjusted (f : Text → ℕ → ℕ) (t t' : SessionTable) : Prop :=
  ∀ p' ∈ t'.sessions, ∃ p ∈ t.sessions, p.1 = p'.1 ∧ p'.2.inFlight = f p.1 p.2.inFlight

/-- A table is itself, with no count changed. -/
theorem Adjusted.refl (t : SessionTable) : Adjusted (fun _ n => n) t t :=
  fun p' hp' => ⟨p', hp', rfl, rfl⟩

/-- Counts that are changed twice. -/
theorem Adjusted.trans {t'' : SessionTable} (h : Adjusted (fun _ n => n) t t') (h' : Adjusted f t' t'') :
    Adjusted f t t'' := by
  intro p'' hp''
  obtain ⟨p', hp', hid', hcount'⟩ := h' p'' hp''
  obtain ⟨p, hp, hid, hcount⟩ := h p' hp'
  exact ⟨p, hp, hid.trans hid', by rw [hcount', hcount, hid]⟩

/-- A session is not found when it is not in the table. -/
theorem find_eq_none {sessionId : Text} :
    t.find sessionId = none ↔ ∀ p ∈ t.sessions, p.1 ≠ sessionId := by
  rw [find, List.lookup_eq_none_iff]
  exact forall₂_congr fun p _ => by rw [bne_iff_ne, ne_comm]

/-- A session that is found is in the table. -/
theorem mem_of_find {sessionId : Text} {record : SessionRecord} (h : t.find sessionId = some record) :
    (sessionId, record) ∈ t.sessions := by
  obtain ⟨l, l', hsessions, -⟩ := List.lookup_eq_some_iff.1 h
  rw [hsessions]
  exact List.mem_append_right _ List.mem_cons_self

/-- One lease more on the session. -/
def oneMore (sessionId k : Text) (n : ℕ) : ℕ := if k = sessionId then n + 1 else n

/-- One lease less on the session. -/
def oneLess (sessionId k : Text) (n : ℕ) : ℕ := if k = sessionId then n - 1 else n

/-- A change of one record. -/
theorem adjusted_modify (sessionId : Text) (g : SessionRecord → SessionRecord)
    (hsame : ∀ p ∈ t.sessions, p.1 ≠ sessionId → f p.1 p.2.inFlight = p.2.inFlight)
    (hone : ∀ record, f sessionId record.inFlight = (g record).inFlight) :
    Adjusted f t (t.modify sessionId g) := by
  intro p' hp'
  obtain ⟨p, hp, rfl⟩ := List.mem_map.1 hp'
  by_cases hid : p.1 = sessionId
  · refine ⟨p, hp, by rw [if_pos hid], ?_⟩
    rw [if_pos hid, hid, hone]
  · refine ⟨p, hp, by rw [if_neg hid], ?_⟩
    rw [if_neg hid, hsame p hp hid]

/-- A session that is removed. -/
theorem adjusted_erase (t : SessionTable) (sessionId : Text) :
    Adjusted (fun _ n => n) t (t.erase sessionId) := by
  intro p hp
  exact ⟨p, (List.mem_filter.1 hp).1, rfl, rfl⟩

/-- A session that is removed is not there any more. -/
theorem absent_erase (t : SessionTable) (sessionId : Text) :
    ∀ p ∈ (t.erase sessionId).sessions, p.1 ≠ sessionId :=
  fun _ hp => of_decide_eq_true (List.mem_filter.1 hp).2

/-- The expiry of sessions keeps the counts. -/
theorem adjusted_expire (t : SessionTable) (now : ℚ) : Adjusted (fun _ n => n) t (t.expire now) := by
  intro p' hp'
  obtain ⟨p, hp, rfl⟩ := List.mem_map.1 hp'
  refine ⟨p, (List.mem_filter.1 hp).1, rfl, ?_⟩
  dsimp only
  split_ifs <;> rfl

/-- The expiry of sessions adds none. -/
theorem length_expire (t : SessionTable) (now : ℚ) :
    (t.expire now).sessions.length ≤ t.sessions.length := by
  rw [expire, List.length_map]
  exact List.length_filter_le ..

variable {config : SessionConfig}

/-- What the locked part of an admission does: nothing, or it takes a lease on a
    session or a reservation. -/
theorem lease_cases (t : SessionTable) (config : SessionConfig) (sessionIds versions : List Text)
    (owner : Owner) :
    (∃ e, t.lease config sessionIds versions owner = (t, .error e)) ∨
    t.lease config sessionIds versions owner = (t, .ok .none) ∨
    (∃ sessionId, t.lease config sessionIds versions owner =
      (t.modify sessionId fun record => { record with inFlight := record.inFlight + 1 },
        .ok (.session sessionId))) ∨
    (t.sessions.length + t.pending < config.maxSessions ∧
      t.lease config sessionIds versions owner =
        ({ t with pending := t.pending + 1 }, .ok (.reserved owner))) := by
  fun_cases SessionTable.lease t config sessionIds versions owner with
  | case1 => exact .inl ⟨_, rfl⟩
  | case2 => exact .inl ⟨_, rfl⟩
  | case3 => exact .inr (.inr (.inl ⟨_, rfl⟩))
  | case4 => exact .inl ⟨_, rfl⟩
  | case5 => exact .inr (.inl rfl)
  | case6 => exact .inl ⟨_, rfl⟩
  | case7 hlimit => exact .inr (.inr (.inr ⟨not_le.1 hlimit, rfl⟩))

/-- What the locked part of a release does: it takes one lease off the session, which
    it may remove. -/
theorem releaseSession_spec (t : SessionTable) (sessionId : Text) (remove terminate : Bool) :
    (t.releaseSession sessionId remove terminate).1.pending = t.pending ∧
    (t.releaseSession sessionId remove terminate).1.sessions.length ≤ t.sessions.length ∧
    Adjusted (oneLess sessionId) t
      (t.releaseSession sessionId remove terminate).1 ∧
    (t.releaseSession sessionId remove terminate).2 ≠ .raises := by
  have hgone : Adjusted (oneLess sessionId) t (t.erase sessionId) := by
    intro p hp
    obtain ⟨p', hp', hid, hcount⟩ := adjusted_erase t sessionId p hp
    refine ⟨p', hp', hid, ?_⟩
    rw [oneLess, if_neg (hid ▸ absent_erase t sessionId p hp), hcount]
  have hlength : (t.erase sessionId).sessions.length ≤ t.sessions.length := List.length_filter_le ..
  fun_cases SessionTable.releaseSession t sessionId remove terminate with
  | case1 hnone =>
    refine ⟨rfl, le_rfl, fun p hp => ⟨p, hp, rfl, ?_⟩, nofun⟩
    rw [oneLess, if_neg (find_eq_none.1 hnone p hp)]
  | case2 => exact ⟨rfl, hlength, hgone, nofun⟩
  | case3 => exact ⟨rfl, hlength, hgone, nofun⟩
  | case4 =>
    refine ⟨rfl, (List.length_map _).le, adjusted_modify sessionId _ (fun p _ hp => ?_) fun record => ?_,
      nofun⟩
    · exact if_neg hp
    · exact if_pos rfl

/-- A session that is beyond its lifetime is removed with its last lease. -/
theorem releaseSession_expired {sessionId : Text} {record : SessionRecord}
    (h : t.find sessionId = some record) (hexpired : record.expired = true)
    (hone : record.inFlight = 1) : (t.releaseSession sessionId false false).1 = t.erase sessionId := by
  simp [releaseSession, h, hexpired, hone]

end SessionTable

/-- The count of a session, after the lease was given back. -/
def SessionLease.givenBack : SessionLease → Text → ℕ → ℕ
  | .session sessionId => SessionTable.oneLess sessionId
  | .none | .reserved _ => fun _ n => n

/-- The count of a session, after the lease was taken. -/
def SessionLease.taken : SessionLease → Text → ℕ → ℕ
  | .session sessionId => SessionTable.oneMore sessionId
  | .none | .reserved _ => fun _ n => n

/-- The number of reservations that the lease is. -/
def SessionLease.reservations : SessionLease → ℕ
  | .reserved _ => 1
  | .none | .session _ => 0

/-! ## One request moves on -/

namespace Leases

open SessionTable

variable {config : SessionConfig} {s : Leases} {r : ℕ} {lease : SessionLease}
  {phase phase' : LeasePhase} {table : SessionTable}

/-- The requests that have a property, after one of them has moved on. -/
theorem countP_set_request (P : SessionRequest → Bool) {q : SessionRequest} (q' : SessionRequest)
    (hq : s.requests[r]? = some q) :
    (s.requests.set r q').countP P + (P q).toNat = s.requests.countP P + (P q').toNat := by
  obtain ⟨hr, rfl⟩ := List.getElem?_eq_some_iff.1 hq
  have hite (b : Bool) : (if b = true then 1 else 0) = b.toNat := by cases b <;> rfl
  have hle : (P s.requests[r]).toNat ≤ s.requests.countP P := by
    cases h : P s.requests[r] with
    | false => exact Nat.zero_le _
    | true => exact List.countP_pos_iff.2 ⟨_, List.getElem_mem hr, h⟩
  rw [List.countP_set hr, hite, hite]
  omega

/-- A request that holds a lease is counted. -/
theorem countP_pos {P : SessionRequest → Bool} {q : SessionRequest} (hq : s.requests[r]? = some q)
    (hP : P q = true) : 0 < s.requests.countP P :=
  List.countP_pos_iff.2 ⟨q, List.mem_of_getElem? hq, hP⟩

/-- A request that moves on keeps the counts right, when the table moves with it. -/
theorem Accounted.move (hs : s.Accounted) (hq : s.requests[r]? = some ⟨lease, phase⟩)
    (hpending : table.pending + (SessionRequest.mk lease phase).reserves.toNat =
      s.table.pending + (SessionRequest.mk lease phase').reserves.toNat)
    (hinFlight : ∀ p ∈ table.sessions, p.2.inFlight + ((SessionRequest.mk lease phase).uses p.1).toNat =
      s.leasesOn p.1 + ((SessionRequest.mk lease phase').uses p.1).toNat)
    (haborting : phase' = .aborting → ∃ sessionId, lease = .session sessionId)
    (hrejected : ∀ left, phase' = .removing true left → lease = .none) :
    (s.move r table lease phase').Accounted where
  pending := by
    have hcount := countP_set_request SessionRequest.reserves ⟨lease, phase'⟩ hq
    have hold := hs.pending
    rw [reservations] at hold
    change table.pending = (s.requests.set r ⟨lease, phase'⟩).countP SessionRequest.reserves
    omega
  inFlight p hp := by
    have hcount := countP_set_request (fun q => q.uses p.1) ⟨lease, phase'⟩ hq
    have hnew := hinFlight p hp
    rw [leasesOn] at hnew
    change p.2.inFlight = (s.requests.set r ⟨lease, phase'⟩).countP fun q => q.uses p.1
    omega
  aborting q hq' hphase := by
    rcases List.mem_or_eq_of_mem_set hq' with hmem | rfl
    · exact hs.aborting q hmem hphase
    · exact haborting hphase
  rejected q hq' left hphase := by
    rcases List.mem_or_eq_of_mem_set hq' with hmem | rfl
    · exact hs.rejected q hmem left hphase
    · exact hrejected left hphase

/-- A request whose lease stays as it is. -/
theorem Accounted.stay (hs : s.Accounted) (hq : s.requests[r]? = some ⟨lease, phase⟩)
    (hout : lease = .none ∨ (SessionRequest.mk lease phase).outstanding =
      (SessionRequest.mk lease phase').outstanding)
    (haborting : phase' ≠ .aborting)
    (hrejected : ∀ left, phase' = .removing true left → lease = .none) :
    (s.move r s.table lease phase').Accounted := by
  have hsame : (SessionRequest.mk lease phase).reserves = (SessionRequest.mk lease phase').reserves ∧
      ∀ k, (SessionRequest.mk lease phase).uses k = (SessionRequest.mk lease phase').uses k := by
    rcases hout with rfl | hout
    · exact ⟨rfl, fun k => by simp [SessionRequest.uses]⟩
    · refine ⟨?_, fun k => by rw [SessionRequest.uses, SessionRequest.uses, hout]⟩
      rw [SessionRequest.reserves, SessionRequest.reserves, hout]
  refine hs.move hq ?_ (fun p hp => ?_) (fun h => absurd h haborting) hrejected
  · rw [hsame.1]
  · rw [hsame.2, hs.inFlight p hp]

/-- A request whose lease is given back. -/
theorem Accounted.giveBack (hs : s.Accounted) (hq : s.requests[r]? = some ⟨lease, phase⟩)
    (hout : (SessionRequest.mk lease phase).outstanding = true)
    (hout' : (SessionRequest.mk lease phase').outstanding = false)
    (hpending : table.pending + (SessionRequest.mk lease phase).reserves.toNat = s.table.pending)
    (hadjusted : Adjusted lease.givenBack s.table table)
    (haborting : phase' = .aborting → ∃ sessionId, lease = .session sessionId) :
    (s.move r table lease phase').Accounted := by
  have hnone : (SessionRequest.mk lease phase').reserves = false ∧
      ∀ k, (SessionRequest.mk lease phase').uses k = false := by
    refine ⟨?_, fun k => by rw [SessionRequest.uses, hout', Bool.false_and]⟩
    cases lease <;> first | rfl | exact hout'
  refine hs.move hq ?_ (fun p' hp' => ?_) haborting fun left hleft => ?_
  · rw [hnone.1, hpending]
    rfl
  · obtain ⟨p, hp, hid, hcount⟩ := hadjusted p' hp'
    have hpos : (SessionRequest.mk lease phase).uses p'.1 = true → 0 < s.leasesOn p'.1 :=
      fun h => countP_pos (P := fun q => q.uses p'.1) hq h
    rw [hnone.2, hcount, hs.inFlight p hp, hid]
    cases lease with
    | none => simp [SessionRequest.uses, SessionLease.givenBack]
    | reserved owner => simp [SessionRequest.uses, SessionLease.givenBack]
    | session sessionId =>
      by_cases hsession : p'.1 = sessionId
      · have huses : (SessionRequest.mk (.session sessionId) phase).uses p'.1 = true := by
          rw [SessionRequest.uses, hout, hsession]
          simp
        have := hpos huses
        simp only [SessionLease.givenBack, oneLess, huses, if_pos hsession, Bool.toNat_true,
          Bool.toNat_false]
        omega
      · have huses : (SessionRequest.mk (.session sessionId) phase).uses p'.1 = false := by
          rw [SessionRequest.uses, Bool.and_eq_false_iff]
          exact .inr (decide_eq_false fun h => hsession (SessionLease.session.inj h).symm)
        simp only [SessionLease.givenBack, oneLess, huses, if_neg hsession]
  · rw [hleft] at hout'
    cases hout'

/-- What an abort does to the table, of a lease that is outstanding: it gives back the
    lease and does not raise. -/
theorem abortSession_spec (hs : s.Accounted) (hq : s.requests[r]? = some ⟨lease, phase⟩)
    (hout : (SessionRequest.mk lease phase).outstanding = true) :
    (s.table.abortSession lease).1.pending + (SessionRequest.mk lease phase).reserves.toNat =
      s.table.pending ∧
    Adjusted lease.givenBack s.table (s.table.abortSession lease).1 ∧
    (s.table.abortSession lease).2 ≠ .raises ∧
    ((s.table.abortSession lease).2 ≠ .returns → ∃ sessionId, lease = .session sessionId) := by
  cases lease with
  | none => exact ⟨rfl, .refl _, nofun, fun h => absurd rfl h⟩
  | session sessionId =>
    obtain ⟨hpending, -, hadjusted, hraises⟩ := s.table.releaseSession_spec sessionId false false
    exact ⟨hpending, hadjusted, hraises, fun _ => ⟨sessionId, rfl⟩⟩
  | reserved owner =>
    have hreserves : (SessionRequest.mk (.reserved owner) phase).reserves = true := hout
    have hpos : 0 < s.table.pending := hs.pending ▸ countP_pos hq hreserves
    rw [abortSession, if_neg (Nat.not_lt.2 hpos), hreserves]
    exact ⟨Nat.sub_add_cancel hpos, .refl _, nofun, fun h => absurd rfl h⟩

/-- A handler gives back a lease that is outstanding. -/
theorem Accounted.handle (hs : s.Accounted) (hq : s.requests[r]? = some ⟨lease, phase⟩)
    (hout : (SessionRequest.mk lease phase).outstanding = true) : (s.handle r lease).Accounted := by
  obtain ⟨hpending, hadjusted, -, -⟩ := abortSession_spec hs hq hout
  exact hs.giveBack hq hout rfl hpending hadjusted nofun

/-- A lease that is aborted once more, after it was given back: its session is not
    there, or has no lease to lose, or goes with the last one. -/
def Idle (s : Leases) (lease : SessionLease) : Prop :=
  match lease with
  | .session sessionId => ∀ record ∈ s.table.find sessionId,
      record.inFlight = 0 ∨ (record.expired = true ∧ record.inFlight = 1)
  | .none | .reserved _ => True

/-- A handler that aborts an idle lease once more keeps the counts right. -/
theorem Accounted.handle_again (hs : s.Accounted) (hq : s.requests[r]? = some ⟨lease, .aborting⟩)
    (hidle : s.Idle lease) : (s.handle r lease).Accounted := by
  obtain ⟨sessionId, rfl⟩ : ∃ sessionId, lease = .session sessionId :=
    hs.aborting _ (List.mem_of_getElem? hq) rfl
  obtain ⟨hpending, -, hadjusted, -⟩ := s.table.releaseSession_spec sessionId false false
  refine hs.move hq (congrArg (· + 0) hpending) (fun p hp => ?_) nofun nofun
  obtain ⟨p', hp', hid, hcount⟩ := hadjusted p hp
  have hold := hs.inFlight p' hp'
  rw [hcount, oneLess, ← hid]
  split_ifs with hsession
  · cases hfind : s.table.find sessionId with
    | none => exact absurd hsession (find_eq_none.1 hfind p' hp')
    | some record =>
      -- All records under the id count the same leases.
      have hrecord := hs.inFlight _ (mem_of_find hfind)
      rw [hsession, ← hrecord] at hold
      rcases hidle record hfind with hzero | ⟨hexpired, hone⟩
      · rw [hsession, ← hrecord, hold, hzero]
        rfl
      · change p ∈ (s.table.releaseSession sessionId false false).1.sessions at hp
        rw [releaseSession_expired hfind hexpired hone] at hp
        exact absurd (hid.symm.trans hsession) (absent_erase _ _ p hp)
  · exact congrArg (· + 0) hold

/-- An abort gives back a lease that is outstanding. -/
theorem Accounted.abort (hs : s.Accounted) (hq : s.requests[r]? = some ⟨lease, phase⟩)
    (hout : (SessionRequest.mk lease phase).outstanding = true) : (s.abort r lease).Accounted := by
  obtain ⟨hpending, hadjusted, hraises, hremoves⟩ := abortSession_spec hs hq hout
  rw [Leases.abort]
  split
  · rename_i table habort
    rw [habort] at hpending hadjusted
    exact hs.giveBack hq hout rfl hpending hadjusted nofun
  · rename_i table sessionId terminate habort
    rw [habort] at hpending hadjusted hremoves
    exact hs.giveBack hq hout rfl hpending hadjusted fun _ => hremoves nofun
  · rename_i table habort
    rw [habort] at hraises
    exact absurd rfl hraises

end Leases

/-! ## Steps that keep the leases -/

/-- A completion can read what it needs of the response before it gives back the
    lease. -/
def SessionLease.Legible (lease : SessionLease) (response : Limiter) (requestMethod : Text) : Prop :=
  match lease with
  | .none => True
  | .reserved _ =>
    (response.headerValues (bytesLit "mcp-session-id")).isSome ∧ response.status.isSome
  | .session _ => requestMethod = lit "DELETE" → response.status.isSome

instance SessionLease.Legible.decidable (lease : SessionLease) (response : Limiter)
    (requestMethod : Text) : Decidable (lease.Legible response requestMethod) :=
  match lease with
  | .none => .isTrue trivial
  | .reserved _ => inferInstanceAs (Decidable (_ ∧ _))
  | .session _ => inferInstanceAs (Decidable (_ → _))

/-- A completion that cannot read the response leaves the table as it is. -/
theorem SessionTable.completeSession_of_not_legible {t : SessionTable} {config : SessionConfig}
    {response : Limiter} {requestMethod : Text} {now : ℚ} {lease : SessionLease}
    (h : ¬ lease.Legible response requestMethod) :
    (t.completeSession config response requestMethod now lease).1 = t := by
  fun_cases SessionTable.completeSession t config response requestMethod now lease with
  | case1 | case2 | case3 | case5 => rfl
  | case4 owner values hvalues status hstatus =>
    exact absurd ⟨by rw [hvalues]; rfl, by rw [hstatus]; rfl⟩ h
  | case6 sessionId hdelete status hstatus =>
    exact absurd (fun _ => by rw [hstatus]; rfl) h
  | case7 sessionId hdelete => exact absurd (fun hd => absurd hd hdelete) h

namespace Leases

/-- The session that a response creates for a reservation: with a status of success and
    a valid id. -/
def creates (lease : SessionLease) (response : Limiter) : Option Text :=
  match lease, response.headerValues (bytesLit "mcp-session-id"), response.status with
  | .reserved _, some values, some status =>
    (createdSession values).filter fun sessionId => successful status && validSessionId sessionId
  | _, _, _ => none

/-- A new session that a response creates has no outstanding lease. -/
def Fresh (s : Leases) (lease : SessionLease) (response : Limiter) : Prop :=
  ∀ sessionId ∈ creates lease response, s.table.find sessionId = none → s.leasesOn sessionId = 0

/-- The table counts a lease: a reservation, or a lease on a session that is there. -/
def counts (s : Leases) : SessionLease → Bool
  | .none => false
  | .session sessionId => (s.table.find sessionId).isSome
  | .reserved _ => true

/-- A step loses no lease and confuses no leases: in an admission whose lease is counted,
    the removal of expired sessions neither raises nor is cancelled; a lease that was
    given back is idle where it is aborted once more; the response is legible where a
    lease is counted, and its session fresh; and the SDK raises no `BaseException` that
    is not handled where a lease is counted. -/
def KeepsLease (s : Leases) : LeaseEvent → Prop
  | .removed r ending => ∀ q ∈ s.requests[r]?,
      if q.phase = .aborting then ending = .returns ∨ ending = .escapes ∨ s.Idle q.lease
      else ending = .returns ∨ s.counts q.lease = false
  | .leave r (.returned response requestMethod _) => ∀ q ∈ s.requests[r]?,
      (s.counts q.lease = true → q.lease.Legible response requestMethod) ∧ s.Fresh q.lease response
  | .leave r .escaped => ∀ q ∈ s.requests[r]?, s.counts q.lease = false
  | _ => True

instance Idle.decidable (s : Leases) : ∀ lease, Decidable (s.Idle lease)
  | .session sessionId => inferInstanceAs (Decidable (∀ record ∈ s.table.find sessionId,
      record.inFlight = 0 ∨ (record.expired = true ∧ record.inFlight = 1)))
  | .none | .reserved _ => .isTrue trivial

instance Fresh.decidable (s : Leases) (lease : SessionLease) (response : Limiter) :
    Decidable (s.Fresh lease response) :=
  inferInstanceAs (Decidable (∀ sessionId ∈ creates lease response,
    s.table.find sessionId = none → s.leasesOn sessionId = 0))

instance KeepsLease.decidable (s : Leases) : ∀ e, Decidable (s.KeepsLease e)
  | .removed r ending => inferInstanceAs (Decidable (∀ q ∈ s.requests[r]?,
      if q.phase = .aborting then ending = .returns ∨ ending = .escapes ∨ s.Idle q.lease
      else ending = .returns ∨ s.counts q.lease = false))
  | .leave r (.returned response requestMethod _) => inferInstanceAs (Decidable (∀ q ∈ s.requests[r]?,
      (s.counts q.lease = true → q.lease.Legible response requestMethod) ∧ s.Fresh q.lease response))
  | .leave r .escaped => inferInstanceAs (Decidable (∀ q ∈ s.requests[r]?, s.counts q.lease = false))
  | .leave _ .timeout | .leave _ .tokenCancelled | .leave _ .raised | .leave _ .cancelled
  | .arrive _ _ _ | .finish _ => .isTrue trivial

variable {config : SessionConfig} {s s' : Leases} {r : ℕ} {lease : SessionLease}

/-- A lease that the table does not count may be lost. -/
theorem Accounted.drop (hs : s.Accounted) {phase phase' : LeasePhase}
    (hq : s.requests[r]? = some ⟨lease, phase⟩) (hcounts : s.counts lease = false)
    (haborting : phase' ≠ .aborting) (hrejected : ∀ left, phase' ≠ .removing true left) :
    (s.move r s.table lease phase').Accounted := by
  cases lease with
  | none => exact hs.stay hq (.inl rfl) haborting fun left h => absurd h (hrejected left)
  | reserved owner => cases hcounts
  | session sessionId =>
    rw [counts, Option.isSome_eq_false_iff, Option.isNone_iff_eq_none] at hcounts
    have habsent := SessionTable.find_eq_none.1 hcounts
    refine hs.move hq rfl (fun p hp => ?_) (fun h => absurd h haborting)
      fun left h => absurd h (hrejected left)
    have huses (phase : LeasePhase) : (SessionRequest.mk (.session sessionId) phase).uses p.1 = false := by
      rw [SessionRequest.uses, Bool.and_eq_false_iff]
      exact .inr (decide_eq_false fun h => habsent p hp (SessionLease.session.inj h).symm)
    rw [huses, huses, hs.inFlight p hp]

/-- A reservation is given back, and becomes the session that the response has
    created, if there is one. -/
theorem Accounted.completeReservation (hs : s.Accounted) {owner : Owner}
    (hq : s.requests[r]? = some ⟨.reserved owner, .serving⟩) (sessionId : Option Text) (status : ℤ)
    (now : ℚ)
    (hfresh : ∀ k ∈ sessionId.filter fun k => successful status && validSessionId k,
      s.table.find k = none → s.leasesOn k = 0) :
    (s.move r (s.table.completeReservation config owner sessionId status now).1 (.reserved owner)
      .finishing).Accounted := by
  have hpos : 0 < s.table.pending := hs.pending ▸ Leases.countP_pos hq rfl
  have hpending : s.table.pending - 1 +
      (SessionRequest.mk (.reserved owner) .serving).reserves.toNat = s.table.pending :=
    Nat.sub_add_cancel hpos
  have hnothing : (s.move r { s.table with pending := s.table.pending - 1 } (.reserved owner)
      .finishing).Accounted :=
    hs.giveBack hq rfl rfl hpending (.refl s.table) nofun
  rw [SessionTable.completeReservation, if_neg (Nat.not_lt.2 hpos)]
  cases sessionId with
  | none => exact hnothing
  | some sessionId =>
    dsimp only
    split_ifs with hregistered
    · rw [Bool.and_eq_true, Option.isNone_iff_eq_none] at hregistered
      have hnew := hfresh sessionId (Option.filter_eq_some_iff.2 ⟨rfl, hregistered.1⟩) hregistered.2
      refine hs.move hq hpending (fun p hp => ?_) nofun nofun
      rcases List.mem_append.1 hp with hold | hcreated
      · exact congrArg (· + 0) (hs.inFlight p hold)
      · rw [List.mem_singleton.1 hcreated, hnew]
        rfl
    · exact hnothing

/-- A completion gives back the lease, where the table counts it and the response can
    be read. -/
theorem Accounted.complete (hs : s.Accounted) (hq : s.requests[r]? = some ⟨lease, .serving⟩)
    {response : Limiter} {requestMethod : Text}
    (hlegible : s.counts lease = true → lease.Legible response requestMethod)
    (hfresh : s.Fresh lease response) (now : ℚ) :
    (s.move r (s.table.completeSession config response requestMethod now lease).1 lease
      .finishing).Accounted := by
  cases lease with
  | none => exact hs.stay hq (.inl rfl) nofun nofun
  | reserved owner =>
    obtain ⟨hvalues, hstatus⟩ := hlegible rfl
    obtain ⟨values, hvalues⟩ := Option.isSome_iff_exists.1 hvalues
    obtain ⟨status, hstatus⟩ := Option.isSome_iff_exists.1 hstatus
    simp only [Fresh, creates, hvalues, hstatus] at hfresh
    rw [SessionTable.completeSession, hvalues, hstatus]
    exact hs.completeReservation hq _ _ now hfresh
  | session sessionId =>
    have hrelease (remove : Bool) :
        (s.move r (s.table.releaseSession sessionId remove false).1 (.session sessionId)
          .finishing).Accounted := by
      obtain ⟨hpending, -, hadjusted, -⟩ := s.table.releaseSession_spec sessionId remove false
      exact hs.giveBack hq rfl rfl hpending hadjusted nofun
    rw [SessionTable.completeSession]
    split_ifs with hdelete
    · cases hstatus : response.status with
      | none =>
        -- The completion raises, and the session is not there any more.
        refine hs.drop hq (Bool.eq_false_of_not_eq_true fun hcounts => ?_) nofun nofun
        have hlegible := hlegible hcounts hdelete
        rw [hstatus] at hlegible
        cases hlegible
      | some status => exact hrelease _
    · exact hrelease false

/-- A new request keeps the counts right, when its lease is counted with it. -/
theorem Accounted.append (hs : s.Accounted) {table : SessionTable} {phase : LeasePhase}
    (hpending : table.pending = s.table.pending + lease.reservations)
    (hadjusted : SessionTable.Adjusted lease.taken s.table table)
    (hout : lease = .none ∨ (SessionRequest.mk lease phase).outstanding = true)
    (haborting : phase ≠ .aborting) (hrejected : ∀ left, phase = .removing true left → lease = .none) :
    Accounted { table, requests := s.requests ++ [⟨lease, phase⟩] } := by
  have hsingle (P : SessionRequest → Bool) :
      [SessionRequest.mk lease phase].countP P = (P ⟨lease, phase⟩).toNat := by
    cases h : P ⟨lease, phase⟩ <;> simp [h]
  have hreserves : (SessionRequest.mk lease phase).reserves.toNat = lease.reservations := by
    cases lease with
    | none => rfl
    | session sessionId => rfl
    | reserved owner => rw [SessionRequest.reserves, hout.resolve_left nofun]; rfl
  have huses (k : Text) (n : ℕ) :
      lease.taken k n = n + ((SessionRequest.mk lease phase).uses k).toNat := by
    rw [SessionRequest.uses]
    cases lease with
    | none => simp [SessionLease.taken]
    | session sessionId =>
      rw [hout.resolve_left nofun, Bool.true_and, SessionLease.taken, SessionTable.oneMore]
      by_cases hid : k = sessionId
      · simp [hid]
      · simp [hid, Ne.symm hid]
    | reserved owner => simp [SessionLease.taken]
  refine ⟨⟨?_, fun p hp => ?_⟩, fun q hq hphase => ?_, fun q hq left hphase => ?_⟩
  · rw [reservations, List.countP_append, hsingle, hreserves, hpending, hs.pending]
    rfl
  · obtain ⟨p', hp', hid, hcount⟩ := hadjusted p hp
    rw [leasesOn, List.countP_append, hsingle, hcount, hs.inFlight p' hp', huses, hid]
    rfl
  · rcases List.mem_append.1 hq with hold | hnew
    · exact hs.aborting q hold hphase
    · rw [List.mem_singleton.1 hnew] at hphase
      exact absurd hphase haborting
  · rcases List.mem_append.1 hq with hold | hnew
    · exact hs.rejected q hold left hphase
    · rw [List.mem_singleton.1 hnew] at hphase ⊢
      exact hrejected left hphase

/-- What an admission does to the table: it takes the lease that it returns, and none
    where it rejects the request. -/
theorem admitSession_spec (t : SessionTable) (config : SessionConfig) (headers : List (Text × Text))
    (owner : Owner) (now : ℚ) {table : SessionTable} {result : Except SessionAdmissionError SessionLease}
    {left : List Text} (h : t.admitSession config headers owner now = (table, result, left)) :
    table.pending = t.pending + (result.toOption.getD .none).reservations ∧
      SessionTable.Adjusted (result.toOption.getD .none).taken t table := by
  have hexpire := t.adjusted_expire now
  rw [SessionTable.admitSession] at h
  dsimp only at h
  split_ifs at h
  · cases h
    exact ⟨rfl, .refl t⟩
  · cases h
    exact ⟨rfl, .refl t⟩
  · rcases (t.expire now).lease_cases config (SessionTable.headerValues headers (lit "mcp-session-id"))
      (SessionTable.headerValues headers (lit "mcp-protocol-version")) owner with
      ⟨e, heq⟩ | heq | ⟨sessionId, heq⟩ | ⟨-, heq⟩
    all_goals
      rw [heq] at h
      cases h
    · exact ⟨rfl, hexpire⟩
    · exact ⟨rfl, hexpire⟩
    · refine ⟨rfl, hexpire.trans <| SessionTable.adjusted_modify sessionId _ (fun p _ hp => ?_) fun _ => ?_⟩
      · exact if_neg hp
      · exact if_pos rfl
    · exact ⟨rfl, hexpire⟩

/-- An admission keeps the counts right. -/
theorem Accounted.arrive (hs : s.Accounted) (headers : List (Text × Text)) (owner : Owner) (now : ℚ) :
    (s.arrive config headers owner now).Accounted := by
  rw [Leases.arrive]
  split
  all_goals
    rename_i heq
    obtain ⟨hpending, hadjusted⟩ := admitSession_spec s.table config headers owner now heq
  · exact hs.append hpending hadjusted (.inr rfl) nofun nofun
  · exact hs.append hpending hadjusted (.inr rfl) nofun nofun
  · exact hs.append hpending hadjusted (.inl rfl) nofun nofun
  · exact hs.append hpending hadjusted (.inl rfl) nofun fun _ _ => rfl

/-- What an event does to the leases, by where the request of it stands. -/
inductive Moves (config : SessionConfig) (s : Leases) : LeaseEvent → Leases → Prop
  | arrive (headers : List (Text × Text)) (owner : Owner) (now : ℚ) :
      Moves config s (.arrive headers owner now) (s.arrive config headers owner now)
  | removedExpired {r : ℕ} {lease : SessionLease} {rejected : Bool} {sessionId : Text}
      {left : List Text} (ending : Ending)
      (hq : s.requests[r]? = some ⟨lease, .removing rejected (sessionId :: left)⟩) :
      Moves config s (.removed r ending) (s.removedExpired r lease rejected left ending)
  | removedAborted {r : ℕ} {lease : SessionLease} (ending : Ending)
      (hq : s.requests[r]? = some ⟨lease, .aborting⟩) :
      Moves config s (.removed r ending) (s.removedAborted r lease ending)
  | leave {r : ℕ} {lease : SessionLease} (how : SdkLeave)
      (hq : s.requests[r]? = some ⟨lease, .serving⟩) :
      Moves config s (.leave r how) (s.leave config r lease how)
  | finish {r : ℕ} {lease : SessionLease} (hq : s.requests[r]? = some ⟨lease, .finishing⟩) :
      Moves config s (.finish r) (s.move r s.table lease .ended)

theorem moves_of_step {e : LeaseEvent} (hstep : (leases config).step s e = some s') :
    Moves config s e s' := by
  simp only [leases] at hstep
  cases e with
  | arrive headers owner now =>
    cases hstep
    exact .arrive headers owner now
  | removed r ending =>
    dsimp only at hstep
    split at hstep
    · next hq =>
      cases hstep
      exact .removedExpired ending hq
    · next hq =>
      cases hstep
      exact .removedAborted ending hq
    · cases hstep
  | leave r how =>
    dsimp only at hstep
    split at hstep
    · next hq =>
      cases hstep
      exact .leave how hq
    · cases hstep
  | finish r =>
    dsimp only at hstep
    split at hstep
    · next hq =>
      cases hstep
      exact .finish hq
    · cases hstep

/-- A step that keeps the leases keeps the counts right. -/
theorem accounted_step (hs : s.Accounted) {e : LeaseEvent} (hkeeps : s.KeepsLease e)
    (hstep : (leases config).step s e = some s') : s'.Accounted := by
  cases moves_of_step hstep with
  | arrive headers owner now => exact hs.arrive headers owner now
  | @removedExpired r lease rejected sessionId left ending hq =>
    -- A request that is rejected has no lease, and so none to give back.
    have hrejected : rejected = true → lease = .none := by
      rintro rfl
      exact hs.rejected _ (List.mem_of_getElem? hq) _ rfl
    have hkeeps : ending = .returns ∨ s.counts lease = false := by
      have hkeeps := hkeeps _ hq
      rwa [if_neg (by simp)] at hkeeps
    cases ending with
    | returns =>
      cases left with
      | nil =>
        cases rejected with
        | true => exact hs.stay hq (.inl (hrejected rfl)) nofun nofun
        | false => exact hs.stay hq (.inr rfl) nofun nofun
      | cons k left =>
        refine hs.stay hq (.inr rfl) nofun fun _ hphase => hrejected ?_
        exact (LeasePhase.removing.inj hphase).1
    | raises => exact hs.drop hq (hkeeps.resolve_left nofun) nofun nofun
    | cancelled => exact hs.drop hq (hkeeps.resolve_left nofun) nofun nofun
    | escapes => exact hs.drop hq (hkeeps.resolve_left nofun) nofun nofun
  | @removedAborted r lease ending hq =>
    have hkeeps : ending = .returns ∨ ending = .escapes ∨ s.Idle lease := by
      have hkeeps := hkeeps _ hq
      rwa [if_pos rfl] at hkeeps
    cases ending with
    | returns => exact hs.stay hq (.inr rfl) nofun nofun
    | raises => exact hs.handle_again hq ((hkeeps.resolve_left nofun).resolve_left nofun)
    | cancelled => exact hs.handle_again hq ((hkeeps.resolve_left nofun).resolve_left nofun)
    | escapes => exact hs.stay hq (.inr rfl) nofun nofun
  | leave how hq =>
    cases how with
    | timeout => exact hs.abort hq rfl
    | tokenCancelled => exact hs.abort hq rfl
    | returned response requestMethod now =>
      obtain ⟨hlegible, hfresh⟩ := hkeeps _ hq
      exact hs.complete hq hlegible hfresh now
    | raised => exact hs.handle hq rfl
    | cancelled => exact hs.handle hq rfl
    | escaped => exact hs.drop hq (hkeeps _ hq) nofun nofun
  | finish hq => exact hs.stay hq (.inr rfl) nofun nofun

/-! ## Steps that do not -/

/-- A lease that the table counts is lost when its request goes on without it. -/
theorem Counted.lost (hs : s.Counted) {phase phase' : LeasePhase}
    (hq : s.requests[r]? = some ⟨lease, phase⟩)
    (hout : (SessionRequest.mk lease phase).outstanding = true)
    (hout' : (SessionRequest.mk lease phase').outstanding = false) (hcounts : s.counts lease = true) :
    ¬ (s.move r s.table lease phase').Counted := by
  intro hs'
  cases lease with
  | none => cases hcounts
  | reserved owner =>
    have hcount := countP_set_request SessionRequest.reserves ⟨.reserved owner, phase'⟩ hq
    have hreserves : (SessionRequest.mk (.reserved owner) phase).reserves = true := hout
    have hreserves' : (SessionRequest.mk (.reserved owner) phase').reserves = false := hout'
    rw [hreserves, hreserves'] at hcount
    exact absurd (hs.pending.symm.trans hs'.pending) (Nat.ne_of_gt (Nat.lt_of_succ_le hcount.le))
  | session sessionId =>
    obtain ⟨record, hrecord⟩ := Option.isSome_iff_exists.1 hcounts
    have hmem := SessionTable.mem_of_find hrecord
    have hcount := countP_set_request (fun q => q.uses sessionId) ⟨.session sessionId, phase'⟩ hq
    rw [SessionRequest.uses, SessionRequest.uses, hout, hout'] at hcount
    simp only [decide_true, Bool.and_true, Bool.toNat_true, Bool.toNat_false] at hcount
    exact absurd ((hs.inFlight _ hmem).symm.trans (hs'.inFlight _ hmem))
      (Nat.ne_of_gt (Nat.lt_of_succ_le hcount.le))

/-- A lease that is aborted once more takes one off a session that is not idle. -/
theorem Accounted.taken_twice (hs : s.Accounted) (hq : s.requests[r]? = some ⟨lease, .aborting⟩)
    (hidle : ¬ s.Idle lease) : ¬ (s.handle r lease).Counted := by
  intro hs'
  obtain ⟨sessionId, rfl⟩ : ∃ sessionId, lease = .session sessionId :=
    hs.aborting _ (List.mem_of_getElem? hq) rfl
  have hnot : ∃ record, s.table.find sessionId = some record ∧
      ¬ (record.inFlight = 0 ∨ (record.expired = true ∧ record.inFlight = 1)) := by
    by_contra hnone
    exact hidle fun record hrecord => by_contra fun h => hnone ⟨record, hrecord, h⟩
  obtain ⟨record, hrecord, hbusy⟩ := hnot
  rw [not_or] at hbusy
  have hkept : (s.table.releaseSession sessionId false false).1 =
      s.table.modify sessionId fun record => { record with inFlight := record.inFlight - 1 } := by
    rw [SessionTable.releaseSession, hrecord]
    simp only [Bool.false_eq_true, if_false]
    rw [if_neg]
    simp only [Bool.and_eq_true, decide_eq_true_eq, not_and]
    exact fun hexpired hzero => hbusy.2 ⟨hexpired, by omega⟩
  have hmem := SessionTable.mem_of_find hrecord
  have hless : (sessionId, { record with inFlight := record.inFlight - 1 }) ∈
      (s.handle r (.session sessionId)).table.sessions := by
    change _ ∈ (s.table.releaseSession sessionId false false).1.sessions
    rw [hkept]
    exact List.mem_map.2 ⟨_, hmem, if_pos rfl⟩
  have hcount := countP_set_request (fun q => q.uses sessionId) ⟨.session sessionId, .finishing⟩ hq
  have hold := hs.inFlight _ hmem
  have hnew := hs'.inFlight _ hless
  change record.inFlight = s.leasesOn sessionId at hold
  change record.inFlight - 1 = (s.handle r (.session sessionId)).leasesOn sessionId at hnew
  have hsame : (s.handle r (.session sessionId)).leasesOn sessionId = s.leasesOn sessionId := hcount
  have hpos := hbusy.1
  omega

/-- A session that is created under an id with outstanding leases counts none of them. -/
theorem Accounted.confused (hs : s.Accounted) (hq : s.requests[r]? = some ⟨lease, .serving⟩)
    {response : Limiter} (requestMethod : Text) (now : ℚ) (hfresh : ¬ s.Fresh lease response) :
    ¬ (s.move r (s.table.completeSession config response requestMethod now lease).1 lease
      .finishing).Counted := by
  intro hs'
  have hnot : ∃ sessionId, creates lease response = some sessionId ∧
      s.table.find sessionId = none ∧ s.leasesOn sessionId ≠ 0 := by
    by_contra hnone
    exact hfresh fun sessionId hcreates hfind => by_contra fun h => hnone ⟨_, hcreates, hfind, h⟩
  obtain ⟨sessionId, hcreates, hfind, hleases⟩ := hnot
  unfold creates at hcreates
  split at hcreates
  · rename_i owner values status hvalues hstatus
    obtain ⟨hcreated, hvalid⟩ := Option.filter_eq_some_iff.1 hcreates
    have hpos : 0 < s.table.pending := hs.pending ▸ Leases.countP_pos hq rfl
    have hmem : ∃ record, (sessionId, record) ∈ (s.table.completeSession config response requestMethod
        now (.reserved owner)).1.sessions ∧ record.inFlight = 0 := by
      rw [SessionTable.completeSession, hvalues, hstatus]
      simp only [SessionTable.completeReservation, if_neg (Nat.not_lt.2 hpos), hcreated, hvalid, hfind,
        Option.isNone_none, Bool.and_true, if_true]
      exact ⟨_, List.mem_append_right _ (List.mem_singleton_self _), rfl⟩
    obtain ⟨record, hmem, hzero⟩ := hmem
    have hcount := countP_set_request (fun q => q.uses sessionId) ⟨.reserved owner, .finishing⟩ hq
    have hnone := hs'.inFlight _ hmem
    rw [hzero] at hnone
    exact hleases (hcount.symm.trans hnone.symm)
  · cases hcreates

/-- A step that does not keep the leases makes a count wrong. -/
theorem not_counted_of_not_keepsLease (hs : s.Accounted) {e : LeaseEvent}
    (hkeeps : ¬ s.KeepsLease e) (hstep : (leases config).step s e = some s') : ¬ s'.Counted := by
  cases moves_of_step hstep with
  | arrive headers owner now => exact absurd trivial hkeeps
  | finish hq => exact absurd trivial hkeeps
  | @removedExpired r lease rejected sessionId left ending hq =>
    have hlost : ¬ (ending = .returns ∨ s.counts lease = false) := fun h => hkeeps fun q hq' => by
      obtain rfl := Option.some.inj (hq.symm.trans hq')
      rwa [if_neg (by simp)]
    obtain ⟨hending, hcounts⟩ := not_or.1 hlost
    rw [Bool.not_eq_false] at hcounts
    cases ending with
    | returns => exact absurd rfl hending
    | raises => exact hs.lost hq rfl rfl hcounts
    | cancelled => exact hs.lost hq rfl rfl hcounts
    | escapes => exact hs.lost hq rfl rfl hcounts
  | @removedAborted r lease ending hq =>
    have htwice : ¬ (ending = .returns ∨ ending = .escapes ∨ s.Idle lease) :=
      fun h => hkeeps fun q hq' => by
        obtain rfl := Option.some.inj (hq.symm.trans hq')
        rwa [if_pos rfl]
    obtain ⟨hending, hending', hidle⟩ := not_or.1 htwice |>.imp_right not_or.1
    cases ending with
    | returns => exact absurd rfl hending
    | raises => exact hs.taken_twice hq hidle
    | cancelled => exact hs.taken_twice hq hidle
    | escapes => exact absurd rfl hending'
  | @leave r lease how hq =>
    cases how with
    | timeout => exact absurd trivial hkeeps
    | tokenCancelled => exact absurd trivial hkeeps
    | raised => exact absurd trivial hkeeps
    | cancelled => exact absurd trivial hkeeps
    | escaped =>
      refine hs.lost hq rfl rfl (Bool.eq_true_of_not_eq_false fun h => hkeeps fun q hq' => ?_)
      obtain rfl := Option.some.inj (hq.symm.trans hq')
      exact h
    | returned response requestMethod now =>
      by_cases hfresh : s.Fresh lease response
      · have hillegible : ¬ (s.counts lease = true → lease.Legible response requestMethod) :=
          fun h => hkeeps fun q hq' => by
            obtain rfl := Option.some.inj (hq.symm.trans hq')
            exact ⟨h, hfresh⟩
        obtain ⟨hcounts, hillegible⟩ := Classical.not_imp.1 hillegible
        have hraises : (s.table.completeSession config response requestMethod now lease).1 = s.table :=
          SessionTable.completeSession_of_not_legible hillegible
        rw [Leases.leave, hraises]
        exact hs.lost hq rfl rfl hcounts
      · exact hs.confused hq requestMethod now hfresh

/-! ## The limit -/

/-- The sessions and the reservations of a table. -/
def size (t : SessionTable) : ℕ := t.sessions.length + t.pending

/-- An abort does not add to the table. -/
theorem size_abortSession (t : SessionTable) (lease : SessionLease) :
    size (t.abortSession lease).1 ≤ size t := by
  cases lease with
  | none => exact le_rfl
  | session sessionId =>
    obtain ⟨hpending, hlength, -⟩ := t.releaseSession_spec sessionId false false
    exact Nat.add_le_add hlength hpending.le
  | reserved owner =>
    rw [SessionTable.abortSession]
    split_ifs
    · exact le_rfl
    · exact Nat.add_le_add le_rfl (Nat.sub_le ..)

/-- A completion does not add to the table: a session takes the place of its
    reservation. -/
theorem size_completeSession (t : SessionTable) (response : Limiter) (requestMethod : Text)
    (now : ℚ) (lease : SessionLease) :
    size (t.completeSession config response requestMethod now lease).1 ≤ size t := by
  have hrelease (sessionId : Text) (remove : Bool) :
      size (t.releaseSession sessionId remove false).1 ≤ size t := by
    obtain ⟨hpending, hlength, -⟩ := t.releaseSession_spec sessionId remove false
    exact Nat.add_le_add hlength hpending.le
  have hcomplete (owner : Owner) (sessionId : Option Text) (status : ℤ) :
      size (t.completeReservation config owner sessionId status now).1 ≤ size t := by
    rw [SessionTable.completeReservation]
    by_cases hpos : t.pending < 1
    · rw [if_pos hpos]
    rw [if_neg hpos]
    have hless : t.pending - 1 + 1 = t.pending := Nat.sub_add_cancel (Nat.not_lt.1 hpos)
    cases sessionId with
    | none => exact Nat.add_le_add le_rfl (Nat.sub_le ..)
    | some sessionId =>
      dsimp only
      split_ifs
      · simp only [size, List.length_append, List.length_singleton]
        omega
      · exact Nat.add_le_add le_rfl (Nat.sub_le ..)
  fun_cases SessionTable.completeSession t config response requestMethod now lease with
  | case1 => exact le_rfl
  | case2 => exact le_rfl
  | case3 => exact le_rfl
  | case4 => exact hcomplete ..
  | case5 => exact le_rfl
  | case6 => exact hrelease ..
  | case7 => exact hrelease ..

/-- An admission stays within the limit. -/
theorem size_admitSession (t : SessionTable) (headers : List (Text × Text)) (owner : Owner) (now : ℚ)
    (h : size t ≤ config.maxSessions) :
    size (t.admitSession config headers owner now).1 ≤ config.maxSessions := by
  have hexpire : size (t.expire now) ≤ config.maxSessions :=
    (Nat.add_le_add (t.length_expire now) le_rfl).trans h
  rw [SessionTable.admitSession]
  dsimp only
  split_ifs
  · exact h
  · exact h
  · rcases (t.expire now).lease_cases config (SessionTable.headerValues headers (lit "mcp-session-id"))
      (SessionTable.headerValues headers (lit "mcp-protocol-version")) owner with
      ⟨e, heq⟩ | heq | ⟨sessionId, heq⟩ | ⟨hroom, heq⟩
    all_goals rw [heq]
    · exact hexpire
    · exact hexpire
    · rw [size, SessionTable.modify, List.length_map]
      exact hexpire
    · exact hroom

/-- An abort in the body of the call does not add to the table: it is made once, and once
    more where the first one raises. -/
theorem size_abort (s : Leases) (r : ℕ) (lease : SessionLease) :
    size (s.abort r lease).table ≤ size s.table := by
  have hsize := size_abortSession s.table lease
  rw [Leases.abort]
  split
  all_goals
    rename_i heq
    rw [heq] at hsize
  · exact hsize
  · exact hsize
  · exact (size_abortSession _ lease).trans hsize

/-- Every step stays within the limit. -/
theorem size_step {e : LeaseEvent} (hs : size s.table ≤ config.maxSessions)
    (hstep : (leases config).step s e = some s') : size s'.table ≤ config.maxSessions := by
  have hhandle (r : ℕ) (lease : SessionLease) :
      size (s.handle r lease).table ≤ config.maxSessions :=
    (size_abortSession s.table lease).trans hs
  cases moves_of_step hstep with
  | arrive headers owner now =>
    have harrive := size_admitSession s.table headers owner now hs
    rw [Leases.arrive]
    split
    all_goals
      rename_i heq
      rw [heq] at harrive
      exact harrive
  | @removedExpired r lease rejected sessionId left ending hq =>
    fun_cases Leases.removedExpired s r lease rejected left ending <;> exact hs
  | @removedAborted r lease ending hq =>
    fun_cases Leases.removedAborted s r lease ending
    · exact hs
    · exact hhandle r lease
    · exact hhandle r lease
    · exact hs
  | @leave r lease how hq =>
    cases how with
    | timeout => exact (size_abort s r lease).trans hs
    | tokenCancelled => exact (size_abort s r lease).trans hs
    | returned response requestMethod now => exact (size_completeSession ..).trans hs
    | raised => exact hhandle r lease
    | cancelled => exact hhandle r lease
    | escaped => exact hs
  | finish hq => exact hs

end Leases

open Leases in
/-- The leases of the sessions. In every run, the sessions and the reservations are
    never more than the limit; and in every run whose steps keep the leases, the
    reservations that are counted are the outstanding ones, and each session counts
    the outstanding leases on it (`Counted`). The first step that does not keep the
    leases makes a count wrong. -/
theorem leases_accounted (config : SessionConfig) :
    (∀ h s, (leases config).Run Machine.Free h s →
      s.table.sessions.length + s.table.pending ≤ config.maxSessions) ∧
    ∀ h s, (leases config).Run KeepsLease h s → s.Counted ∧
      ∀ e s', (leases config).step s e = some s' → (s'.Counted ↔ s.KeepsLease e) := by
  refine ⟨fun h s hr => ?_, fun h s hr => ?_⟩
  · exact hr.invariant (I := fun s => size s.table ≤ config.maxSessions) (Nat.zero_le _)
      fun s e s' hs _ hstep => size_step hs hstep
  · have hs : s.Accounted := hr.invariant ⟨⟨rfl, nofun⟩, nofun, nofun⟩ fun s e s' hs hkeeps hstep =>
      accounted_step hs hkeeps hstep
    refine ⟨hs.toCounted, fun e s' hstep => ⟨fun hcounted => ?_, fun hkeeps => ?_⟩⟩
    · by_contra hkeeps
      exact not_counted_of_not_keepsLease hs hkeeps hstep hcounted
    · exact (accounted_step hs hkeeps hstep).toCounted

/-- A transport for a single session, of ten seconds. -/
def oneSession : SessionConfig where
  maxSessions := 1
  sessionLifetimeSeconds := 10
  handshakeProtocolVersions := []
  rounding := .finite

/-- An owner of sessions. -/
def north : Owner := (lit "north", lit "https://issuer", lit "alice")

/-- The id of a session. -/
def sessionA : Text := List.replicate 32 97

/-- A response that creates a session. -/
def creating : Limiter where
  start := some (some 200, some [(bytesLit "mcp-session-id", List.replicate 32 97)])
  ready := true

/-- A request creates a session, and another one is on it. -/
def sharedEvents : List LeaseEvent :=
  [.arrive [] north 0, .leave 0 (.returned creating (lit "POST") 0), .finish 0,
    .arrive [(lit "mcp-session-id", sessionA)] north 5]

open Leases in
theorem leases_accounted_example :
    ∃ s, (leases oneSession).Run KeepsLease sharedEvents.reverse s ∧
      s.table.sessions.length = 1 ∧ s.leasesOn sessionA = 1 ∧ s.Counted := by
  have heval : ∃ s ∈ (leases oneSession).exec {} sharedEvents,
      (leases oneSession).Meets KeepsLease {} sharedEvents ∧ s.table.sessions.length = 1 ∧
        s.leasesOn sessionA = 1 := by
    decide +kernel
  obtain ⟨s, hs, hmeets, hlength, hlease⟩ := heval
  have hr := Machine.run_of_exec hs hmeets
  exact ⟨s, hr, hlength, hlease, ((leases_accounted oneSession).2 _ _ hr).1⟩

/-- A request reserves a session, and the SDK returns without a complete response. -/
def incompleteEvents : List LeaseEvent :=
  [.arrive [] north 0, .leave 0 (.returned {} (lit "POST") 0), .finish 0]

/-- A request reserves a session, while the removal of an expired one raises. -/
def expiringEvents : List LeaseEvent :=
  [.arrive [] north 0, .leave 0 (.returned creating (lit "POST") 0), .finish 0,
    .arrive [] north 20, .removed 1 .raises, .finish 1]

/-- Reservations are lost: every request has ended, a reservation is still counted,
    and there is no room for a session any more. -/
theorem reservation_lost :
    (∃ s, (leases oneSession).Run Machine.Free incompleteEvents.reverse s ∧
      (∀ q ∈ s.requests, q.phase = .ended) ∧ s.table.pending = 1 ∧ s.reservations = 0 ∧
      s.table.lease oneSession [] [] north = (s.table, .error sessionLimitReached)) ∧
    ∃ s, (leases oneSession).Run Machine.Free expiringEvents.reverse s ∧
      (∀ q ∈ s.requests, q.phase = .ended) ∧ s.table.pending = 1 ∧ s.reservations = 0 ∧
      s.table.lease oneSession [] [] north = (s.table, .error sessionLimitReached) := by
  have hfull {t : SessionTable} (h : t.pending = 1) :
      t.lease oneSession [] [] north = (t, .error sessionLimitReached) := by
    rw [SessionTable.lease, if_pos]
    rw [h]
    exact Nat.le_add_left 1 _
  have hincomplete : ∃ s ∈ (leases oneSession).exec {} incompleteEvents,
      (∀ q ∈ s.requests, q.phase = .ended) ∧ s.table.pending = 1 ∧ s.reservations = 0 := by
    decide +kernel
  have hexpiring : ∃ s ∈ (leases oneSession).exec {} expiringEvents,
      (∀ q ∈ s.requests, q.phase = .ended) ∧ s.table.pending = 1 ∧ s.reservations = 0 := by
    decide +kernel
  obtain ⟨s, hs, hended, hpending, hnone⟩ := hincomplete
  obtain ⟨t, ht, hended', hpending', hnone'⟩ := hexpiring
  exact ⟨⟨s, Machine.run_of_exec hs (Machine.meets_free _ _), hended, hpending, hnone, hfull hpending⟩,
    t, Machine.run_of_exec ht (Machine.meets_free _ _), hended', hpending', hnone', hfull hpending'⟩

end McpRuntime.Transport
