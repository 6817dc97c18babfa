import McpRuntime.Transport.Response

/-!
# What is sent of a response

The messages of the response that an exchange has sent follow its phase
(`Exchange.Orderly`): none before the first `send`, then the start, then the start
and the whole body, which have the same origin.

* `exchange_atomic`: in every run, the client gets at most one start; a buffered body
  is within the limit, and has the length that its start declares, if the SDK sends
  nothing while its start is being sent; nothing of the SDK follows an answer of the
  transport; and an exchange that ends without a cancellation, and in which only an
  `Exception` is raised, has sent exactly one complete response.
* The SDK may raise something else, and then nothing is sent, or may send a part of
  the body in between, and then the declared length is wrong (`exchange_not_atomic`).
-/

namespace McpRuntime.Transport

/-- The messages of a response among those that were sent. -/
def responses (sent : List Sent) : List Sent := sent.filter fun m => m.message.isResponse

/-- The values of the `content-length` headers. -/
def contentLengths (headers : List Header) : List (List UInt8) :=
  (headers.filter fun item => lowerBytes item.1 = bytesLit "content-length").map Prod.snd

/-- The start of a response, which declares the length of the body, if nothing
    disturbs that. -/
def Started (quiet : Prop) (origin : Origin) (length : ℕ) (rs : List Sent) : Prop :=
  ∃ status headers, rs = [⟨origin, .start status (some headers)⟩] ∧
    (quiet → contentLengths headers = [decimal length])

/-- A complete response, whose body is within the limit if it was buffered. -/
def Complete (quiet : Prop) (maximum : ℕ) (origin : Origin) (rs : List Sent) : Prop :=
  ∃ status headers body,
    rs = [⟨origin, .start status (some headers)⟩, ⟨origin, .body (some body) false⟩] ∧
      (quiet → contentLengths headers = [decimal body.length]) ∧
      (origin = .application → body.length ≤ maximum)

/-- What was sent of the response in a phase, with the buffered body. -/
def Answered (quiet : Prop) (maximum : ℕ) (body : List UInt8) (rs : List Sent) : Phase → Prop
  | .flushing false => Started quiet .application body.length rs
  | .replying r false => Started quiet .transport r.body.length rs
  | .flushing true => Complete quiet maximum .application rs
  | .replying _ true => Complete quiet maximum .transport rs
  | .ended _ =>
    rs = [] ∨ ∃ origin, (∃ length, Started quiet origin length rs) ∨ Complete quiet maximum origin rs
  | _ => rs = []

section
variable {quiet : Prop} {maximum : ℕ} {body body' : List UInt8} {phase : Phase} {rs : List Sent}

/-- An exchange may end in any phase. -/
theorem Answered.ended (h : Answered quiet maximum body rs phase) (how : Ending) :
    Answered quiet maximum body' rs (.ended how) := by
  unfold Answered at h
  split at h
  · exact .inr ⟨_, .inl ⟨_, h⟩⟩
  · exact .inr ⟨_, .inl ⟨_, h⟩⟩
  · exact .inr ⟨_, .inr h⟩
  · exact .inr ⟨_, .inr h⟩
  · exact h
  · exact .inl h

/-- The buffered body matters only while its start is being sent. -/
theorem Answered.of_body (h : Answered quiet maximum body rs phase)
    (hquiet : phase = .flushing false → ¬ quiet) : Answered quiet maximum body' rs phase := by
  cases phase with
  | flushing sendsBody =>
    cases sendsBody with
    | false =>
      obtain ⟨status, headers, heq, -⟩ := h
      exact ⟨status, headers, heq, fun hq => absurd hq (hquiet rfl)⟩
    | true => exact h
  | replying r sendsBody => cases sendsBody <;> exact h
  | _ => exact h

end

/-! ## The limiter -/

namespace Limiter

variable {maximum : ℕ} {l : Limiter}

/-- A message does not commit the response; the buffered body stays within the limit,
    and no message of a response is sent on. -/
theorem call_frame (h : l.body.length ≤ maximum) (message : Message) :
    (l.call maximum message).1.committed = l.committed ∧
      (l.call maximum message).1.body.length ≤ maximum ∧
        ∀ m, (l.call maximum message).2 = .sends m → m = .other := by
  fun_cases Limiter.call l maximum message with
  | case1 => exact ⟨rfl, h, fun m hm => nomatch hm⟩
  | case2 => exact ⟨rfl, h, fun m hm => nomatch hm⟩
  | case3 => exact ⟨rfl, h, fun m hm => (LimiterCall.sends.inj hm).symm⟩
  | case4 => exact ⟨rfl, h, fun m hm => nomatch hm⟩
  | case5 => exact ⟨rfl, h, fun m hm => nomatch hm⟩
  | case6 _ chunk hfits =>
    exact ⟨rfl, (List.length_append ..).trans_le (not_lt.1 hfits), fun m hm => nomatch hm⟩
  | case7 _ chunk _ hfits =>
    exact ⟨rfl, (List.length_append ..).trans_le (not_lt.1 hfits), fun m hm => nomatch hm⟩
  | case8 _ chunk _ hfits =>
    exact ⟨rfl, (List.length_append ..).trans_le (not_lt.1 hfits), fun m hm => nomatch hm⟩

/-- The headers that are sent declare the length of the buffered body. -/
theorem contentLengths_measured (headers : List Header) :
    contentLengths (l.measured headers) = [decimal l.body.length] := by
  have hrest : (headers.filter fun item => lowerBytes item.1 ≠ bytesLit "content-length").filter
      (fun item => lowerBytes item.1 = bytesLit "content-length") = [] := by
    rw [List.filter_eq_nil_iff]
    intro item hitem
    simpa using (List.mem_filter.1 hitem).2
  rw [contentLengths, measured, List.filter_append, hrest]
  rfl

end Limiter

/-! ## The order of the messages -/

namespace Exchange

variable {quiet : Prop} {config : ExchangeConfig} {s s' : Exchange}

/-- The messages of the response follow the phase, and the buffer is within the
    limit. -/
structure Orderly (quiet : Prop) (config : ExchangeConfig) (s : Exchange) : Prop where
  answered :
    Answered quiet config.maxResponseBodyBytes s.limiter.body (responses s.sent) s.phase
  bounded : s.limiter.body.length ≤ config.maxResponseBodyBytes

/-- A message of a response is the last one after it was sent. -/
theorem responses_send {origin : Origin} {m : Message} (hm : m.isResponse = true) :
    responses (s.send origin m).sent = responses s.sent ++ [⟨origin, m⟩] := by
  rw [send, responses, List.filter_append]
  exact congrArg _ (List.filter_cons_of_pos hm)

/-- Another message is not one of the response. -/
theorem responses_send_other {origin : Origin} :
    responses (s.send origin .other).sent = responses s.sent := by
  rw [send, responses, List.filter_append]
  exact List.append_nil _

/-- The handler of a `CancelledError` keeps the buffer within the limit. -/
theorem Orderly.bounded_interrupt (h : Orderly quiet config s) :
    s.interrupt.limiter.body.length ≤ config.maxResponseBodyBytes := by
  rw [interrupt]
  dsimp only
  split_ifs
  · exact Nat.zero_le _
  · exact h.bounded

/-- Nothing is sent while the phase changes. -/
theorem orderly_of_sent {t : Exchange} (hsent : t.sent = s.sent)
    (hbounded : t.limiter.body.length ≤ config.maxResponseBodyBytes)
    (hanswered :
      Answered quiet config.maxResponseBodyBytes t.limiter.body (responses s.sent) t.phase) :
    Orderly quiet config t :=
  ⟨hsent ▸ hanswered, hbounded⟩

/-- The call ends. -/
theorem Orderly.ended (h : Orderly quiet config s) (how : Ending) :
    Orderly quiet config { s with phase := .ended how } :=
  orderly_of_sent rfl h.bounded (h.answered.ended how)

/-- The call ends with a `CancelledError`, whose handler stops the SDK. -/
theorem Orderly.interrupted (h : Orderly quiet config s) (how : Ending) :
    Orderly quiet config { s.interrupt with phase := .ended how } :=
  orderly_of_sent rfl h.bounded_interrupt (h.answered.ended how)

/-- An answer of the transport starts where nothing of a response was sent. -/
theorem Orderly.reply (h : Orderly quiet config s) (hnone : responses s.sent = []) (r : Reply) :
    Orderly quiet config (s.reply r) where
  answered := by
    change Started quiet .transport r.body.length (responses (s.send .transport r.start).sent)
    rw [responses_send rfl, hnone]
    exact ⟨_, _, rfl, fun _ => rfl⟩
  bounded := h.bounded

/-- The buffered response starts where nothing of a response was sent. -/
theorem Orderly.flush (h : Orderly quiet config s) (hnone : responses s.sent = []) :
    Orderly quiet config (s.flush config) := by
  rw [Exchange.flush]
  split
  · exact h.reply hnone _
  · rename_i m hm
    rw [Limiter.flushed] at hm
    split at hm
    · split_ifs at hm
      cases hm
      refine ⟨?_, h.bounded⟩
      change Started quiet .application s.limiter.body.length
        (responses (s.send .application _).sent)
      rw [responses_send rfl, hnone]
      exact ⟨_, _, rfl, fun _ => s.limiter.contentLengths_measured _⟩
    · cases hm

/-- What follows the wait for the SDK. -/
theorem Orderly.wake (h : Orderly quiet config s) (hphase : s.phase = .running) (ending : Ending) :
    Orderly quiet config (s.wake ending) := by
  have hnone : responses s.sent = [] := by
    have := h.answered
    rwa [hphase] at this
  cases ending with
  | returns =>
    refine orderly_of_sent rfl h.bounded ?_
    rw [Exchange.wake]
    dsimp only
    split_ifs <;> exact hnone
  | raises => exact orderly_of_sent rfl h.bounded hnone
  | cancelled => exact orderly_of_sent rfl h.bounded_interrupt hnone
  | escapes => exact h.ended .escapes

/-- What follows an `abort_session` in the body of the call. -/
theorem Orderly.endAbort (h : Orderly quiet config s) (hnone : responses s.sent = []) {next : Exchange}
    (hnext : Orderly quiet config next) (ending : Ending) : Orderly quiet config (s.endAbort next ending) := by
  cases ending with
  | returns => exact hnext
  | raises => exact orderly_of_sent rfl h.bounded hnone
  | cancelled => exact orderly_of_sent rfl h.bounded_interrupt hnone
  | escapes => exact h.ended .escapes

/-- What follows the end of a lease. -/
theorem Orderly.endSession (h : Orderly quiet config s) {ending : Ending}
    (hstep : s.endSession config ending = some s') : Orderly quiet config s' := by
  have hanswered := h.answered
  rw [Exchange.endSession] at hstep
  split at hstep
  · rename_i hphase
    rw [hphase] at hanswered
    cases hstep
    exact h.endAbort hanswered (h.reply hanswered _) ending
  · rename_i hphase
    rw [hphase] at hanswered
    cases hstep
    exact h.endAbort hanswered (h.ended .returns) ending
  · rename_i hphase
    rw [hphase] at hanswered
    cases hstep
    cases ending with
    | returns => exact h.flush hanswered
    | raises => exact h.reply hanswered _
    | cancelled => exact h.interrupted .cancelled
    | escapes => exact h.ended .escapes
  · rename_i hphase
    rw [hphase] at hanswered
    cases hstep
    have hreply : Orderly quiet config (if s.limiter.committed then { s with phase := .ended .returns }
        else s.reply config.internalError) := by
      split_ifs
      · exact h.ended .returns
      · exact h.reply hanswered _
    cases ending with
    | returns => exact hreply
    | raises => exact hreply
    | cancelled => exact h.ended .cancelled
    | escapes => exact h.ended .escapes
  · cases hstep
    cases ending <;> exact h.ended _
  · cases hstep

/-- A body completes the response that has started. -/
theorem complete_send {origin : Origin} {body : List UInt8}
    (h : Started quiet origin body.length (responses s.sent))
    (hbody : origin = .application → body.length ≤ config.maxResponseBodyBytes) :
    Complete quiet config.maxResponseBodyBytes origin
      (responses (s.send origin (.body (some body) false)).sent) := by
  obtain ⟨status, headers, heq, hlength⟩ := h
  rw [responses_send rfl, heq]
  exact ⟨status, headers, body, rfl, hlength, hbody⟩

/-- A body follows its start. -/
theorem Orderly.sendReturned (h : Orderly quiet config s) (hstep : s.sendReturned = some s') :
    Orderly quiet config s' := by
  have hanswered := h.answered
  rw [Exchange.sendReturned] at hstep
  split at hstep
  · rename_i hphase
    rw [hphase] at hanswered
    cases hstep
    exact ⟨complete_send hanswered fun _ => h.bounded, h.bounded⟩
  · rename_i hphase
    rw [hphase] at hanswered
    cases hstep
    exact ⟨complete_send hanswered nofun, h.bounded⟩
  · cases hstep
    exact h.ended .returns
  · cases hstep
    exact h.ended .returns
  · cases hstep

/-- What follows a cancellation of the task. -/
theorem Orderly.cancelled (h : Orderly quiet config s) (hstep : s.cancelled = some s') :
    Orderly quiet config s' := by
  have hanswered := h.answered
  unfold Exchange.cancelled at hstep
  split at hstep
  all_goals
    cases hstep
    try exact h.ended _
    try exact h.interrupted _
  all_goals
    rename_i hphase
    rw [hphase] at hanswered
    exact orderly_of_sent rfl h.bounded_interrupt hanswered

/-- The SDK sends nothing while its start is being sent. -/
def Quiet (s : Exchange) (e : ExchangeEvent) : Prop :=
  s.phase = .flushing false → ∀ m, e ≠ .message m

/-- Every event keeps an exchange orderly. -/
theorem orderly_step (h : Orderly quiet config s) {e : ExchangeEvent} (hquiet : quiet → Quiet s e)
    (hstep : (exchange config).step s e = some s') : Orderly quiet config s' := by
  have hanswered := h.answered
  simp only [exchange] at hstep
  cases e with
  | admission ending reply =>
    dsimp only at hstep
    split_ifs at hstep with hphase
    rw [not_not] at hphase
    rw [hphase] at hanswered
    split at hstep
    · cases hstep
      exact orderly_of_sent rfl h.bounded hanswered
    · cases hstep
      exact h.reply hanswered reply
    · cases hstep
      exact h.ended _
  | message m =>
    obtain ⟨hcommitted, hbounded, hother⟩ :=
      Limiter.call_frame h.bounded m
    -- The body that is measured and the one that is sent could differ, if the
    -- SDK went on while the start is being sent.
    have hbusy : s.phase = .flushing false → ¬ quiet := fun hphase hq => hquiet hq hphase m rfl
    dsimp only at hstep
    split_ifs at hstep
    split at hstep
    · rename_i limiter m' hcall
      rw [hcall] at hbounded hother
      cases hstep
      cases hother m' rfl
      exact ⟨responses_send_other.symm ▸ hanswered.of_body hbusy, hbounded⟩
    · rename_i limiter result hcall
      rw [hcall] at hbounded
      cases hstep
      exact ⟨hanswered.of_body hbusy, hbounded⟩
  | sdkEnds ending =>
    dsimp only at hstep
    split_ifs at hstep
    cases hstep
    exact ⟨hanswered, h.bounded⟩
  | wake =>
    dsimp only at hstep
    split at hstep
    · rename_i hphase _
      cases hstep
      exact h.wake hphase _
    · cases hstep
  | timeout =>
    dsimp only at hstep
    split at hstep
    · cases hstep
    · rename_i hphase _
      rw [hphase] at hanswered
      cases hstep
      exact orderly_of_sent rfl (Nat.zero_le _) hanswered
    · cases hstep
  | session ending => exact h.endSession hstep
  | sendReturns => exact h.sendReturned hstep
  | cancelToken =>
    cases hstep
    exact ⟨hanswered, h.bounded⟩
  | cancel => exact h.cancelled hstep

/-- An exchange is orderly in every run. -/
theorem orderly_of_run {G : Exchange → ExchangeEvent → Prop} (hquiet : quiet → ∀ s e, G s e → Quiet s e)
    {h : List ExchangeEvent} (hr : (exchange config).Run G h s) : Orderly quiet config s :=
  hr.invariant ⟨rfl, Nat.zero_le _⟩ fun _ _ _ hs hg =>
    orderly_step hs fun hq => hquiet hq _ _ hg

/-! ## Exchanges that nothing cancels -/

/-- Neither the token nor the task of the request is cancelled, and what the call
    awaits raises nothing but an `Exception`. -/
def Undisturbed (s : Exchange) : ExchangeEvent → Prop
  | .admission ending _ | .session ending => ending = .returns ∨ ending = .raises
  | .wake => s.sdk = .done .returns ∨ s.sdk = .done .raises
  | .cancelToken | .cancel => False
  | .message _ | .sdkEnds _ | .timeout | .sendReturns => True

instance Undisturbed.decidable (s : Exchange) : ∀ e, Decidable (Undisturbed s e)
  | .admission ending _ | .session ending =>
    inferInstanceAs (Decidable (ending = .returns ∨ ending = .raises))
  | .wake => inferInstanceAs (Decidable (s.sdk = .done .returns ∨ s.sdk = .done .raises))
  | .cancelToken | .cancel => inferInstanceAs (Decidable False)
  | .message _ | .sdkEnds _ | .timeout | .sendReturns => inferInstanceAs (Decidable True)

/-- How far an exchange is that nothing cancels: it does not abort, and it ends with
    a complete response. -/
def Settled (config : ExchangeConfig) (s : Exchange) : Prop :=
  match s.phase with
  | .preflight | .running => s.token = false ∧ s.limiter.committed = false
  | .timedOut | .completing | .recovering => s.limiter.committed = false
  | .flushing _ | .replying _ _ => True
  | .aborting | .unwinding => False
  | .ended how =>
    how = .returns ∧ ∃ origin, Complete False config.maxResponseBodyBytes origin (responses s.sent)

/-- An answer of the transport's own is under way. -/
theorem settled_reply (r : Reply) : Settled config (s.reply r) := trivial

/-- The response of the SDK is under way, or an answer instead of it. -/
theorem settled_flush : Settled config (s.flush config) := by
  rw [Exchange.flush]
  split <;> trivial

/-- What follows the end of a lease does not abort. -/
theorem Settled.endSession (h : Settled config s) {ending : Ending}
    (hend : ending = .returns ∨ ending = .raises) (hstep : s.endSession config ending = some s') :
    Settled config s' := by
  rw [Settled] at h
  rw [Exchange.endSession] at hstep
  split at hstep
  · rename_i hphase
    rw [hphase] at h
    cases hstep
    rcases hend with rfl | rfl
    · exact settled_reply _
    · exact h
  · rename_i hphase
    rw [hphase] at h
    exact h.elim
  · cases hstep
    rcases hend with rfl | rfl
    · exact settled_flush
    · exact settled_reply _
  · rename_i hphase
    rw [hphase] at h
    have hreply : Settled config (if s.limiter.committed then { s with phase := .ended .returns }
        else s.reply config.internalError) := by
      rw [if_neg (Bool.eq_false_iff.1 h)]
      exact settled_reply _
    cases hstep
    rcases hend with rfl | rfl
    · exact hreply
    · exact hreply
  · rename_i hphase
    rw [hphase] at h
    exact h.elim
  · cases hstep

/-- Where nothing cancels an exchange, every event keeps it settled. -/
theorem settled_step (ho : Orderly False config s) (h : Settled config s) {e : ExchangeEvent}
    (hu : Undisturbed s e) (hstep : (exchange config).step s e = some s') : Settled config s' := by
  simp only [exchange] at hstep
  cases e with
  | admission ending reply =>
    dsimp only at hstep
    split_ifs at hstep with hphase
    rw [not_not] at hphase
    rw [Settled, hphase] at h
    rcases hu with rfl | rfl
    · cases hstep
      exact h
    · cases hstep
      exact settled_reply reply
  | message m =>
    obtain ⟨hcommitted, hbounded, hother⟩ :=
      Limiter.call_frame ho.bounded m
    dsimp only at hstep
    split_ifs at hstep
    split at hstep
    · rename_i limiter m' hcall
      rw [hcall] at hcommitted hother
      cases hstep
      cases hother m' rfl
      rw [Settled] at h ⊢
      dsimp only [send] at hcommitted ⊢
      rw [hcommitted]
      exact responses_send_other (s := s) ▸ h
    · rename_i limiter result hcall
      rw [hcall] at hcommitted
      cases hstep
      rw [Settled] at h ⊢
      dsimp only at hcommitted ⊢
      rw [hcommitted]
      exact h
  | sdkEnds ending =>
    dsimp only at hstep
    split_ifs at hstep
    cases hstep
    exact h
  | wake =>
    dsimp only at hstep
    split at hstep
    · rename_i ending hphase hsdk
      rw [Settled, hphase] at h
      rw [Undisturbed, hsdk, SdkTask.done.injEq, SdkTask.done.injEq] at hu
      cases hstep
      rcases hu with rfl | rfl
      · rw [Exchange.wake, Settled, h.1]
        exact h.2
      · exact h.2
    · cases hstep
  | timeout =>
    dsimp only at hstep
    split at hstep
    · cases hstep
    · rename_i hphase _
      rw [Settled, hphase] at h
      cases hstep
      exact h.2
    · cases hstep
  | session ending => exact h.endSession hu hstep
  | sendReturns =>
    have hanswered := ho.answered
    change s.sendReturned = some s' at hstep
    rw [Exchange.sendReturned] at hstep
    split at hstep
    · cases hstep
      trivial
    · cases hstep
      trivial
    · rename_i hphase
      rw [hphase] at hanswered
      cases hstep
      exact ⟨rfl, _, hanswered⟩
    · rename_i hphase
      rw [hphase] at hanswered
      cases hstep
      exact ⟨rfl, _, hanswered⟩
    · cases hstep
  | cancelToken => exact hu.elim
  | cancel => exact hu.elim

/-- An exchange that nothing cancels is settled. -/
theorem settled_of_run {h : List ExchangeEvent} (hr : (exchange config).Run Undisturbed h s) :
    Settled config s := by
  refine (hr.invariant (I := fun s => Orderly False config s ∧ Settled config s) ?_ ?_).2
  · exact ⟨⟨rfl, Nat.zero_le _⟩, rfl, rfl⟩
  · intro s e s' hs hu hstep
    exact ⟨orderly_step hs.1 False.elim hstep, settled_step hs.1 hs.2 hu hstep⟩

/-! ## The end of an exchange -/

/-- An event that the SDK has no part in, and that nothing cancels. -/
def Own : ExchangeEvent → Prop
  | .admission ending _ | .session ending => ending = .returns
  | .wake | .timeout | .sendReturns => True
  | .message _ | .sdkEnds _ | .cancelToken | .cancel => False

/-- How many events a phase is away from the end, at most. -/
def rank : Phase → ℕ
  | .preflight => 6
  | .running => 5
  | .timedOut | .completing | .aborting => 4
  | .recovering => 3
  | .flushing false | .replying _ false => 2
  | .flushing true | .replying _ true | .unwinding => 1
  | .ended _ => 0

/-- The response of the SDK, or an answer instead of it, is two events away from the
    end. -/
theorem rank_flush : rank (s.flush config).phase = 2 := by
  rw [Exchange.flush]
  split <;> rfl

/-- What follows the wait for the SDK is closer to the end. -/
theorem rank_wake (ending : Ending) : rank (s.wake ending).phase ≤ 4 := by
  cases ending with
  | returns =>
    rw [Exchange.wake]
    dsimp only
    split_ifs <;> rfl
  | raises => exact Nat.le_succ 3
  | cancelled => exact Nat.le_add_left 1 3
  | escapes => exact Nat.zero_le 4

/-- An exchange that has not ended goes on towards its end, whatever the SDK does. -/
theorem exists_own (config : ExchangeConfig) (h : ∀ how, s.phase ≠ .ended how) :
    ∃ e t, Own e ∧ (exchange config).step s e = some t ∧ rank t.phase < rank s.phase := by
  -- Each phase waits for one thing. Where it is the SDK, which may never end,
  -- the timeout comes instead.
  cases hphase : s.phase with
  | preflight =>
    refine ⟨.admission .returns config.internalError, { s with phase := .running, sdk := .running },
      rfl, ?_, Nat.lt_succ_self 5⟩
    simp only [exchange, hphase, ne_eq, not_true, if_false]
  | running =>
    cases hsdk : s.sdk with
    | done ending =>
      refine ⟨.wake, s.wake ending, trivial, ?_, Nat.lt_succ_of_le (rank_wake ending)⟩
      simp only [exchange, hphase, hsdk]
    | absent =>
      refine ⟨.timeout, s.expire, trivial, ?_, Nat.lt_succ_self 4⟩
      simp only [exchange, hphase, hsdk]
    | running =>
      refine ⟨.timeout, s.expire, trivial, ?_, Nat.lt_succ_self 4⟩
      simp only [exchange, hphase, hsdk]
  | timedOut =>
    refine ⟨.session .returns, s.reply config.requestTimeout, rfl, ?_, Nat.le_succ 3⟩
    simp only [exchange, Exchange.endSession, hphase, endAbort]
  | aborting =>
    refine ⟨.session .returns, { s with phase := .ended .returns }, rfl, ?_, Nat.zero_lt_succ 3⟩
    simp only [exchange, Exchange.endSession, hphase, endAbort]
  | completing =>
    refine ⟨.session .returns, s.flush config, rfl, ?_, ?_⟩
    · simp only [exchange, Exchange.endSession, hphase, endComplete]
    · rw [rank_flush]
      exact Nat.le_succ 3
  | recovering =>
    refine ⟨.session .returns, s.endRecovery config .returns, rfl, ?_, ?_⟩
    · simp only [exchange, Exchange.endSession, hphase]
    · rw [endRecovery]
      split_ifs
      · exact Nat.zero_lt_succ 2
      · exact Nat.lt_succ_self 2
  | unwinding =>
    refine ⟨.session .returns, { s with phase := .ended .cancelled }, rfl, ?_, Nat.zero_lt_succ 0⟩
    simp only [exchange, Exchange.endSession, hphase, endUnwinding]
  | flushing sendsBody =>
    cases sendsBody with
    | false =>
      refine ⟨.sendReturns, { s.send .application (.body (some s.limiter.body) false) with phase := .flushing true },
        trivial, ?_, Nat.lt_succ_self 1⟩
      simp only [exchange, Exchange.sendReturned, hphase]
    | true =>
      refine ⟨.sendReturns, { s with phase := .ended .returns }, trivial, ?_, Nat.zero_lt_succ 0⟩
      simp only [exchange, Exchange.sendReturned, hphase]
  | replying r sendsBody =>
    cases sendsBody with
    | false =>
      refine ⟨.sendReturns, { s.send .transport (.body (some r.body) false) with phase := .replying r true },
        trivial, ?_, Nat.lt_succ_self 1⟩
      simp only [exchange, Exchange.sendReturned, hphase]
    | true =>
      refine ⟨.sendReturns, { s with phase := .ended .returns }, trivial, ?_, Nat.zero_lt_succ 0⟩
      simp only [exchange, Exchange.sendReturned, hphase]
  | ended how => exact absurd hphase (h how)

/-- Every exchange can be brought to its end without the SDK. -/
theorem exists_end (config : ExchangeConfig) (s : Exchange) :
    ∃ es s' how, (∀ e ∈ es, Own e) ∧ (exchange config).exec s es = some s' ∧
      s'.phase = .ended how := by
  by_cases h : ∃ how, s.phase = .ended how
  · obtain ⟨how, h⟩ := h
    exact ⟨[], s, how, fun e he => absurd he List.not_mem_nil, rfl, h⟩
  · rw [not_exists] at h
    obtain ⟨e, t, he, hstep, hrank⟩ := exists_own config h
    obtain ⟨es, s', how, hes, hexec, hend⟩ := exists_end config t
    refine ⟨e :: es, s', how, List.forall_mem_cons.2 ⟨he, hes⟩, ?_, hend⟩
    rw [Machine.exec, hstep]
    exact hexec
termination_by rank s.phase

end Exchange

/-! ## Atomicity -/

/-- The start of a response. -/
def Message.isStart : Message → Bool
  | .start _ _ => true
  | .body _ _ | .other => false

/-- Every buffered body that was sent is within the limit. -/
def BodiesWithin (maximum : ℕ) (sent : List Sent) : Prop :=
  ∀ body moreBody, ⟨.application, .body (some body) moreBody⟩ ∈ sent → body.length ≤ maximum

/-- After the start of an answer of the transport, no message of a response comes from
    the SDK. -/
def AnswersFinal (sent : List Sent) : Prop :=
  ∀ before after status headers, sent = before ++ ⟨.transport, .start status headers⟩ :: after →
    ∀ m ∈ after, m.message.isResponse = true → m.origin = .transport

/-- A start that was sent declares the length of the body that was sent. -/
def LengthsDeclared (sent : List Sent) : Prop :=
  ∀ origin origin' status headers body moreBody, ⟨origin, .start status (some headers)⟩ ∈ sent →
    ⟨origin', .body (some body) moreBody⟩ ∈ sent → contentLengths headers = [decimal body.length]

/-- The messages of a response that were sent are one complete response. -/
def CompleteResponse (sent : List Sent) : Prop :=
  ∃ origin status headers body,
    responses sent = [⟨origin, .start status (some headers)⟩, ⟨origin, .body (some body) false⟩]

section
variable {quiet : Prop} {config : ExchangeConfig} {s : Exchange}

/-- The messages of a response that were sent: none, a start, or a start and the body. -/
theorem Exchange.Orderly.cases (h : s.Orderly quiet config) :
    responses s.sent = [] ∨ ∃ origin, (∃ length, Started quiet origin length (responses s.sent)) ∨
      Complete quiet config.maxResponseBodyBytes origin (responses s.sent) :=
  have hended : Answered quiet config.maxResponseBodyBytes [] (responses s.sent) (.ended .returns) :=
    h.answered.ended .returns
  hended

/-- A message of a response that was sent is among the responses. -/
theorem mem_responses {sent : List Sent} {m : Sent} (h : m ∈ sent)
    (hm : m.message.isResponse = true) : m ∈ responses sent :=
  List.mem_filter.2 ⟨h, hm⟩

/-- All messages of a response have one origin. -/
theorem Exchange.Orderly.origin_eq (h : s.Orderly quiet config) {m m' : Sent}
    (hm : m ∈ responses s.sent) (hm' : m' ∈ responses s.sent) : m.origin = m'.origin := by
  rcases h.cases with hnone | ⟨origin, ⟨_, status, headers, heq, _⟩ | ⟨status, headers, body, heq, _⟩⟩
  · rw [hnone] at hm
    cases hm
  all_goals
    rw [heq] at hm hm'
    simp only [List.mem_cons, List.not_mem_nil, or_false] at hm hm'
  · rw [hm, hm']
  · rcases hm with rfl | rfl <;> rcases hm' with rfl | rfl <;> rfl

/-- At most one start was sent. -/
theorem Exchange.Orderly.one_start (h : s.Orderly quiet config) :
    (s.sent.filter fun m => m.message.isStart).length ≤ 1 := by
  have hstarts : s.sent.filter (fun m => m.message.isStart) =
      (responses s.sent).filter fun m => m.message.isStart := by
    rw [responses, List.filter_filter]
    refine List.filter_congr fun m _ => ?_
    cases m.message <;> rfl
  rw [hstarts]
  rcases h.cases with hnone | ⟨origin, ⟨_, status, headers, heq, _⟩ | ⟨status, headers, body, heq, _⟩⟩
  · rw [hnone]
    exact Nat.zero_le 1
  · rw [heq]
    exact le_rfl
  · rw [heq]
    exact le_rfl

/-- A body that was sent belongs to a complete response. -/
theorem Exchange.Orderly.of_body (h : s.Orderly quiet config) {origin : Origin}
    {body : List UInt8} {moreBody : Bool}
    (hm : ⟨origin, .body (some body) moreBody⟩ ∈ s.sent) :
    ∃ status headers,
      responses s.sent = [⟨origin, .start status (some headers)⟩, ⟨origin, .body (some body) false⟩] ∧
      (quiet → contentLengths headers = [decimal body.length]) ∧
      (origin = .application → body.length ≤ config.maxResponseBodyBytes) := by
  have hmem := mem_responses hm rfl
  rcases h.cases with
    hnone | ⟨origin', ⟨_, status, headers, heq, _⟩ | ⟨status, headers, body', heq, hlength, hbound⟩⟩
  · rw [hnone] at hmem
    cases hmem
  · rw [heq, List.mem_singleton] at hmem
    cases hmem
  · have hbody := hmem
    rw [heq, List.mem_cons, List.mem_singleton] at hbody
    rcases hbody with hbody | hbody
    · cases hbody
    · cases hbody
      exact ⟨status, headers, heq, hlength, hbound⟩

end

open Exchange in
/-- The responses of an exchange are atomic. In every run, the client gets at most one
    start, a buffered body is within the limit, and after an answer of the transport
    nothing of the SDK's response follows. While the SDK sends nothing between a
    buffered start and its body, the start declares the length of the body. And where
    nothing cancels the exchange and nothing but an `Exception` is raised in it, it
    returns with exactly one complete response; it can always be brought to its end
    without the SDK. -/
theorem exchange_atomic (config : ExchangeConfig) :
    (∀ h s, (exchange config).Run Machine.Free h s →
      (s.sent.filter fun m => m.message.isStart).length ≤ 1 ∧
        BodiesWithin config.maxResponseBodyBytes s.sent ∧ AnswersFinal s.sent) ∧
    (∀ h s, (exchange config).Run Quiet h s → LengthsDeclared s.sent) ∧
    ∀ h s, (exchange config).Run Undisturbed h s →
      (∀ how, s.phase = .ended how → how = .returns ∧ CompleteResponse s.sent) ∧
        ∃ es s' how, (∀ e ∈ es, Own e) ∧ (exchange config).exec s es = some s' ∧
          s'.phase = .ended how := by
  refine ⟨fun h s hr => ?_, fun h s hr => ?_, fun h s hr => ?_⟩
  · have ho : s.Orderly False config := orderly_of_run False.elim hr
    refine ⟨ho.one_start, fun body moreBody hm => ?_, fun before after status headers heq m hm hres => ?_⟩
    · obtain ⟨_, _, _, _, hbound⟩ := ho.of_body hm
      exact hbound rfl
    · have hanswer : ⟨.transport, .start status headers⟩ ∈ s.sent :=
        heq ▸ List.mem_append_right _ List.mem_cons_self
      have hlater : m ∈ s.sent := heq ▸ List.mem_append_right _ (List.mem_cons_of_mem _ hm)
      exact ho.origin_eq (mem_responses hlater hres) (mem_responses hanswer rfl)
  · have ho : s.Orderly True config := orderly_of_run (fun _ _ _ hq => hq) hr
    intro origin origin' status headers body moreBody hstart hbody
    obtain ⟨status', headers', heq, hlength, -⟩ := ho.of_body hbody
    have hmem := mem_responses hstart rfl
    rw [heq, List.mem_cons, List.mem_singleton] at hmem
    rcases hmem with hmem | hmem
    · cases hmem
      exact hlength trivial
    · cases hmem
  · refine ⟨fun how hend => ?_, exists_end config s⟩
    have hs := settled_of_run hr
    rw [Settled, hend] at hs
    obtain ⟨hhow, origin, status, headers, body, heq, -⟩ := hs
    exact ⟨hhow, origin, status, headers, body, heq⟩

/-- A transport with a limit of ten bytes. -/
def tenBytes : ExchangeConfig where
  maxResponseBodyBytes := 10
  requestId := lit "r"
  protocolErrorBody _ := []

/-- The SDK starts a response, and sends one byte. -/
def answeringEvents : List ExchangeEvent :=
  [.admission .returns tenBytes.internalError, .message (.start (some 200) (some [])),
    .message (.body (some [1]) false), .sdkEnds .returns, .wake, .session .returns]

open Exchange in
theorem exchange_atomic_example :
    ∃ h s, (exchange tenBytes).Run Undisturbed h s ∧ s.phase = .ended .returns ∧
      CompleteResponse s.sent := by
  have heval : ∃ s ∈ (exchange tenBytes).exec {} (answeringEvents ++ [.sendReturns, .sendReturns]),
      (exchange tenBytes).Meets Undisturbed {} (answeringEvents ++ [.sendReturns, .sendReturns]) ∧
        s.phase = .ended .returns := by decide
  obtain ⟨s, hs, hmeets, hend⟩ := heval
  have hr := Machine.run_of_exec hs hmeets
  exact ⟨_, s, hr, hend, (((exchange_atomic tenBytes).2.2 _ _ hr).1 _ hend).2⟩

/-- An SDK that raises a `BaseException` leaves the request without an answer; and a
    body that comes late is sent with the length that was declared before it. -/
theorem exchange_not_atomic :
    (∃ h s, (exchange tenBytes).Run Machine.Free h s ∧
      h = [.wake, .sdkEnds .escapes, .admission .returns tenBytes.internalError] ∧
      s.phase = .ended .escapes ∧ s.token = false ∧ s.sent = []) ∧
    ∃ h s, (exchange tenBytes).Run Machine.Free h s ∧
      s.sent = [⟨.application, .start (some 200) (some [(bytesLit "content-length", decimal 1)])⟩,
        ⟨.application, .body (some [1, 2]) false⟩] ∧ ¬ LengthsDeclared s.sent := by
  have hescapes : ∃ s ∈ (exchange tenBytes).exec {}
      [.admission .returns tenBytes.internalError, .sdkEnds .escapes, .wake],
      s.phase = .ended .escapes ∧ s.token = false ∧ s.sent = [] := by decide
  have hlate : ∃ s ∈ (exchange tenBytes).exec {}
      (answeringEvents ++ [.message (.body (some [2]) false), .sendReturns]),
      s.sent = [⟨.application, .start (some 200) (some [(bytesLit "content-length", decimal 1)])⟩,
        ⟨.application, .body (some [1, 2]) false⟩] := by decide
  obtain ⟨s, hs, hend⟩ := hescapes
  obtain ⟨t, ht, hsent⟩ := hlate
  refine ⟨⟨_, s, Machine.run_of_exec hs (Machine.meets_free _ _), rfl, hend⟩,
    _, t, Machine.run_of_exec ht (Machine.meets_free _ _), hsent, fun hdeclared => ?_⟩
  rw [hsent] at hdeclared
  have hlength := hdeclared .application .application (some 200) _ [1, 2] false
    List.mem_cons_self (List.mem_cons_of_mem _ List.mem_cons_self)
  revert hlength
  decide

end McpRuntime.Transport
