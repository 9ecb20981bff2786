import Vdsm.Rpc.Session

/-!
# Where replies go

A reply is sent to the `reply-to` of the request, else to a subscription, and is tagged with the id of
a subscription. Both searches go through a map without an order of its own, and the tag falls back to
`"0"`, which is also the id of a subscription that was made without one.

`active` is what the map stands for: the subscriptions in the order in which they were made. A
subscription under an id that is taken replaces the old one and is the youngest.
-/

namespace Vdsm.Rpc

open Rust Stomp Framing

/-! ## Subscriptions -/

/-- What a frame makes of the active subscriptions. -/
def activeStep (subs : List (String × String)) (f : Frame) : List (String × String) :=
  match command f with
  | .subscribe =>
    let id := (f.header "id").getD "0"
    subs.filter (fun e => e.1 != id) ++ [(id, (f.header "destination").getD defaultDestination)]
  | .unsubscribe =>
    match f.header "id" with
    | some id => subs.filter fun e => e.1 != id
    | none => subs
  | _ => subs

/-- The active subscriptions after some frames, the earliest first. -/
def active (frames : List Frame) : List (String × String) := frames.foldl activeStep []

/-- The list and the map hold the same subscriptions. -/
def Holds (m : Subscriptions) (subs : List (String × String)) : Prop :=
  ∀ id dest, (id, dest) ∈ subs ↔ m.lookup id = some dest

/-- A subscription that is erased is gone from the map and from the list. -/
theorem Holds.erase {m : Subscriptions} {subs : List (String × String)} (h : Holds m subs)
    (id : String) : Holds (m.erase id) (subs.filter fun e => e.1 != id) := by
  intro id' dest
  by_cases heq : id' = id
  · subst heq
    simp
  · rw [AList.lookup_erase_ne heq, ← h id' dest]
    simp [heq]

/-- One that is inserted replaces those of its id. -/
theorem Holds.insert {m : Subscriptions} {subs : List (String × String)} (h : Holds m subs)
    (id dest : String) :
    Holds (m.insert id dest) (subs.filter (fun e => e.1 != id) ++ [(id, dest)]) := by
  intro id' dest'
  by_cases heq : id' = id
  · subst heq
    simp [eq_comm]
  · rw [AList.lookup_insert_ne heq, ← h id' dest']
    simp [heq]

/-- The map iterates over the active subscriptions. -/
theorem Holds.mem_iff {m : Subscriptions} {subs order : List (String × String)} (h : Holds m subs)
    (hperm : order.Perm m.toPairs) {e : String × String} : e ∈ order ↔ e ∈ subs := by
  rw [hperm.mem_iff, HashMap.mem_toPairs_iff, h e.1 e.2]

/-! ## Replies -/

/-- The `MESSAGE` that `handle_stomp_send` writes for a frame. -/
def messageFor (srv : Server) (s : Session) (f : Frame) : Option Frame :=
  match fromUtf8 f.body.1 with
  | .error _ => none
  | .ok bodyStr =>
    match srv.fromStr bodyStr with
    | .error e => some (replyFrame srv s f
        (.err none (.parseError s!"invalid JSON-RPC envelope: {e}")))
    | .ok req =>
      let response := responseTo req.id (srv.dispatcher.invoke s.trace req.method req.params)
      if req.id.isNone ∧ response.error.isNone then none
      else some (replyFrame srv (s.log (.invoke req.method req.params)) f response)

/-- Handling a `SEND` writes the `MESSAGE` and leaves the subscriptions alone. -/
theorem handleStompSend_eq (srv : Server) (s : Session) (f : Frame) :
    ∃ s', handleStompSend srv s f = .next s' ∧ s'.subscriptions = s.subscriptions ∧
      s'.connected = s.connected ∧ ∃ effs, s'.trace = s.trace ++ effs ∧
        written effs = (messageFor srv s f).toList.flatMap Frame.toBytes := by
  unfold handleStompSend messageFor
  cases fromUtf8 f.body.1 with
  | error e => exact ⟨s, rfl, rfl, rfl, [], by simp, by simp [written]⟩
  | ok bodyStr =>
    cases hparse : srv.fromStr bodyStr with
    | error e =>
      simp only [hparse, sendReply_eq]
      exact ⟨_, rfl, rfl, rfl, _, rfl, by simp [written]⟩
    | ok req =>
      simp only [hparse, finishSend, sendReply_eq]
      split
      · exact ⟨_, rfl, rfl, rfl, _, rfl, by simp [written]⟩
      · refine ⟨_, rfl, rfl, rfl, _ ++ _, List.append_assoc .., ?_⟩
        simp [written]

/-- The destination and the tag of a reply. -/
theorem messageFor_headers {srv : Server} {s : Session} {f m : Frame}
    (h : messageFor srv s f = some m) :
    ∃ past, m.header "destination" = some (replyDestination (srv.order past s.subscriptions) f) ∧
      m.header "subscription" = some (subscriptionId (srv.order past s.subscriptions)
        (replyDestination (srv.order past s.subscriptions) f)) := by
  have hreply : ∀ s₁ r, s₁.subscriptions = s.subscriptions → replyFrame srv s₁ f r = m →
      ∃ past, m.header "destination" = some (replyDestination (srv.order past s.subscriptions) f) ∧
        m.header "subscription" = some (subscriptionId (srv.order past s.subscriptions)
          (replyDestination (srv.order past s.subscriptions) f)) := by
    rintro s₁ r hsubs rfl
    rw [← hsubs]
    exact ⟨s₁.trace, rfl, rfl⟩
  rw [messageFor] at h
  split at h
  · cases h
  · split at h
    · exact hreply _ _ rfl (Option.some.inj h)
    · dsimp only at h
      split at h
      · cases h
      · exact hreply (s.log _) _ rfl (Option.some.inj h)

/-! ## Histories -/

/-- What one frame of a connection does to its subscriptions. -/
theorem handleFrame_holds {srv : Server} {s s' : Session} {f : Frame}
    {subs : List (String × String)} (h : Holds s.subscriptions subs)
    (hnext : handleFrame srv s f = .next s') : Holds s'.subscriptions (activeStep subs f) := by
  rw [handleFrame] at hnext
  split at hnext
  · cases hnext
  · rw [activeStep]
    cases hcmd : command f with
    | connect =>
      rw [hcmd] at hnext
      dsimp only at hnext
      split at hnext
      · cases hnext
      · obtain rfl := Flow.next.inj hnext
        exact h
    | subscribe =>
      rw [hcmd] at hnext
      obtain rfl := Flow.next.inj hnext
      exact h.insert _ _
    | unsubscribe =>
      rw [hcmd] at hnext
      dsimp only at hnext ⊢
      cases hid : f.header "id" with
      | none =>
        rw [hid] at hnext
        obtain rfl := Flow.next.inj hnext
        exact h
      | some id =>
        rw [hid] at hnext
        obtain rfl := Flow.next.inj hnext
        exact h.erase id
    | send =>
      rw [hcmd] at hnext
      obtain ⟨s₁, hs₁, hsubs, -⟩ := handleStompSend_eq srv s f
      obtain rfl : s₁ = s' := Flow.next.inj (hs₁.symm.trans hnext)
      exact hsubs.symm ▸ h
    | disconnect =>
      rw [hcmd] at hnext
      dsimp only at hnext
      split at hnext <;> cases hnext
    | other =>
      rw [hcmd] at hnext
      obtain rfl := Flow.next.inj hnext
      exact h

/-- After any frames the map holds the active subscriptions. -/
theorem feed_holds {srv : Server} {frames : List Frame} {s : Session}
    (h : feed (handleFrame srv) Session.init frames = .next s) :
    Holds s.subscriptions (active frames) := by
  have hrun : ∀ fs s₀ subs, Holds s₀.subscriptions subs → feed (handleFrame srv) s₀ fs = .next s →
      Holds s.subscriptions (fs.foldl activeStep subs) := by
    intro fs
    induction fs with
    | nil =>
      intro s₀ subs h₀ hfeed
      obtain rfl := Flow.next.inj hfeed
      exact h₀
    | cons f fs ih =>
      intro s₀ subs h₀ hfeed
      rw [feed] at hfeed
      split at hfeed
      · rename_i s₁ hs₁
        exact ih s₁ _ (handleFrame_holds h₀ hs₁) hfeed
      · cases hfeed
  exact hrun frames Session.init [] (by intro id dest; simp [Session.init]) h

/-- Live frames are all handled. -/
theorem feed_of_live (srv : Server) {frames : List Frame} {s : Session}
    (h : liveFrames s.connected frames = frames) :
    ∃ s', feed (handleFrame srv) s frames = .next s' := by
  induction frames generalizing s with
  | nil => exact ⟨s, rfl⟩
  | cons f fs ih =>
    rw [liveFrames] at h
    split at h
    · cases h
    · rename_i hf
      obtain ⟨s', hnext, hs'⟩ := handleFrame_next srv hf
      rw [feed, hnext]
      exact ih (hs' ▸ (List.cons.inj h).2)

/-! ## Tags -/

/-- A `MESSAGE` that is tagged with an active subscription is on the destination of that. -/
def TaggedRight (subs : List (String × String)) (m : Frame) : Prop :=
  ∀ id dest d, m.header "subscription" = some id → m.header "destination" = some dest →
    (id, d) ∈ subs → d = dest

/-- The tag of a reply is right when its destination is one of a subscription, or no subscription has
the fall-back id. -/
theorem subscriptionId_right_iff {m : Subscriptions} {subs order : List (String × String)}
    (h : Holds m subs) (hperm : order.Perm m.toPairs) (dest : String) :
    (∀ d, (subscriptionId order dest, d) ∈ subs → d = dest) ↔
      (∃ id, (id, dest) ∈ subs) ∨ ∀ d, ("0", d) ∉ subs := by
  have hfun : ∀ id d d', (id, d) ∈ subs → (id, d') ∈ subs → d = d' := by
    intro id d d' hd hd'
    rw [h] at hd hd'
    rw [hd] at hd'
    exact Option.some.inj hd'
  rw [subscriptionId]
  cases hfind : order.find? fun e => e.2 == dest with
  | some e =>
    obtain ⟨id, d⟩ := e
    obtain rfl : d = dest := by simpa using List.find?_some hfind
    have hsub : (id, d) ∈ subs := (h.mem_iff hperm).mp (List.mem_of_find?_eq_some hfind)
    exact iff_of_true (fun d' hd' => hfun id d' d hd' hsub) (.inl ⟨id, hsub⟩)
  | none =>
    have hnone : ∀ id, (id, dest) ∉ subs := by
      intro id hid
      simpa using List.find?_eq_none.mp hfind (id, dest) ((h.mem_iff hperm).mpr hid)
    constructor
    · intro hright
      refine .inr fun d hd => hnone "0" ?_
      rwa [hright d hd] at hd
    · rintro (⟨id, hid⟩ | hzero) d hd
      · exact absurd hid (hnone id)
      · exact absurd hd (hzero d)

/-- A reply without `reply-to` goes to the destination of the subscription that comes first. -/
theorem replyDestination_of_none {order : List (String × String)} {f : Frame}
    (h : f.header "reply-to" = none) :
    replyDestination order f = (order.head?.map Prod.snd).getD defaultDestination := by
  rw [replyDestination, h, Option.none_or]

/-- No message is tagged with the subscription of another queue. After any frames of a connection, a
`MESSAGE` whose tag is the id of an active subscription is on that subscription's destination, exactly
when the request has no `reply-to`, or one that an active subscription is for, or no active
subscription has the id `"0"`. -/
theorem message_tag_iff (srv : Server) (frames : List Frame) (s : Session) (f m : Frame)
    (hs : feed (handleFrame srv) Session.init frames = .next s)
    (hm : messageFor srv s f = some m) :
    TaggedRight (active frames) m ↔ ∀ replyTo, f.header "reply-to" = some replyTo →
      (∃ id, (id, replyTo) ∈ active frames) ∨ ∀ d, ("0", d) ∉ active frames := by
  have hholds := feed_holds hs
  obtain ⟨past, hdest, htag⟩ := messageFor_headers hm
  have hperm := srv.order_perm past s.subscriptions
  generalize srv.order past s.subscriptions = order at hdest htag hperm
  have hright : TaggedRight (active frames) m ↔
      ∀ d, (subscriptionId order (replyDestination order f), d) ∈ active frames →
        d = replyDestination order f := by
    rw [TaggedRight, hdest, htag]
    constructor
    · exact fun h d hd => h _ _ d rfl rfl hd
    · rintro h _ _ d ⟨⟩ ⟨⟩ hd
      exact h d hd
  rw [hright, subscriptionId_right_iff hholds hperm]
  cases hreply : f.header "reply-to" with
  | some replyTo =>
    have hto : replyDestination order f = replyTo := by simp [replyDestination, hreply]
    simp [hto]
  | none =>
    refine iff_of_true ?_ (by simp)
    rw [replyDestination_of_none hreply]
    cases order with
    | nil => exact .inr fun d hd => absurd ((hholds.mem_iff hperm).mpr hd) List.not_mem_nil
    | cons e rest => exact .inl ⟨e.1, (hholds.mem_iff hperm).mp List.mem_cons_self⟩

/-- A `SUBSCRIBE` to a queue, without an id. -/
def subscribeTo (dest : String) : Frame := (Frame.new "SUBSCRIBE").withHeader "destination" dest

/-- The `SEND` of a request that is to be answered elsewhere. -/
def sendWithReplyTo (replyTo : String) : Frame := (Frame.new "SEND").withHeader "reply-to" replyTo

/-- The connection after a handshake and some frames. -/
def sessionAfter (srv : Server) (frames : List Frame) : Session :=
  match feed (handleFrame srv) (helloSession srv) frames with
  | .next s => s
  | .halt r => r.1

/-- A reply on the queue that the client has subscribed to has the id of that subscription. -/
theorem message_tag_own_queue :
    ∃ m, messageFor pingServer (sessionAfter pingServer [subscribeTo "/queue/a"])
        (sendWithReplyTo "/queue/a") = some m ∧
      TaggedRight (active [Frame.new "CONNECT", subscribeTo "/queue/a"]) m := by
  refine ⟨_, rfl, (message_tag_iff pingServer _ (sessionAfter pingServer [subscribeTo "/queue/a"])
    (sendWithReplyTo "/queue/a") _ rfl rfl).mpr ?_⟩
  intro replyTo hreply
  obtain rfl : "/queue/a" = replyTo := Option.some.inj hreply
  exact .inl ⟨"0", by decide⟩

/-- A reply on a queue that nobody subscribed to carries the tag of the subscription `"0"`. -/
theorem message_tag_other_queue : ¬∀ srv frames s f m,
    feed (handleFrame srv) Session.init frames = .next s → messageFor srv s f = some m →
    TaggedRight (active frames) m := by
  intro h
  have hright := h pingServer [Frame.new "CONNECT", subscribeTo "/queue/a"]
    (sessionAfter pingServer [subscribeTo "/queue/a"]) (sendWithReplyTo "/queue/b") _ rfl rfl
  have hwrong := hright "0" "/queue/b" "/queue/a" rfl rfl (by decide)
  exact absurd hwrong (by decide)

/-! ## The first subscription -/

/-- The server with its subscription map iterating in another order. -/
def Server.withOrder (srv : Server) (order : List Effect → Subscriptions → List (String × String))
    (order_perm : ∀ past m, (order past m).Perm m.toPairs) : Server :=
  { srv with order := order, order_perm := order_perm }

/-- A destination on which the server may answer a `SEND` after some frames, in one order of the map or
another. -/
def MayAnswerOn (srv : Server) (frames : List Frame) (f : Frame) (dest : Option String) : Prop :=
  ∃ order horder s m, feed (handleFrame (srv.withOrder order horder)) Session.init frames = .next s ∧
    messageFor (srv.withOrder order horder) s f = some m ∧ m.header "destination" = dest

/-- The order in which this subscription comes first. -/
def frontOrder (e : String × String) (_past : List Effect) (m : Subscriptions) :
    List (String × String) :=
  if e ∈ m.toPairs then e :: m.toPairs.erase e else m.toPairs

/-- An order with a chosen entry in front is an order of the same map. -/
theorem frontOrder_perm (e : String × String) (past : List Effect) (m : Subscriptions) :
    (frontOrder e past m).Perm m.toPairs := by
  rw [frontOrder]
  split
  · rename_i he
    exact (List.perm_cons_erase he).symm
  · exact .refl _

/-- The destinations of the active subscriptions are those on which the server may answer. -/
theorem mayAnswerOn_iff {srv : Server} {frames : List Frame} {f : Frame}
    (hlive : liveFrames false frames = frames) (hreply : f.header "reply-to" = none)
    (hactive : active frames ≠ [])
    (hanswered : ∀ order horder s,
      feed (handleFrame (srv.withOrder order horder)) Session.init frames = .next s →
        (messageFor (srv.withOrder order horder) s f).isSome = true) (dest : Option String) :
    MayAnswerOn srv frames f dest ↔ ∃ e ∈ active frames, dest = some e.2 := by
  constructor
  · rintro ⟨order, horder, s, m, hs, hm, rfl⟩
    obtain ⟨past, hdest, -⟩ := messageFor_headers hm
    have hperm := (srv.withOrder order horder).order_perm past s.subscriptions
    rw [hdest, replyDestination_of_none hreply]
    generalize (srv.withOrder order horder).order past s.subscriptions = l at hperm
    cases l with
    | nil =>
      obtain ⟨e, rest, hne⟩ := List.exists_cons_of_ne_nil hactive
      have he : e ∈ active frames := by simp [hne]
      exact absurd (((feed_holds hs).mem_iff hperm).mpr he) List.not_mem_nil
    | cons e rest => exact ⟨e, ((feed_holds hs).mem_iff hperm).mp List.mem_cons_self, rfl⟩
  · rintro ⟨e, he, rfl⟩
    obtain ⟨s, hs⟩ := feed_of_live (srv.withOrder (frontOrder e) (frontOrder_perm e))
      (s := Session.init) hlive
    obtain ⟨m, hm⟩ := Option.isSome_iff_exists.mp (hanswered _ _ s hs)
    obtain ⟨past, hdest, -⟩ := messageFor_headers hm
    refine ⟨_, _, s, m, hs, hm, ?_⟩
    have hmem : e ∈ s.subscriptions.toPairs :=
      ((feed_holds hs).mem_iff (.refl _)).mpr he
    have hfront : (srv.withOrder (frontOrder e) (frontOrder_perm e)).order past s.subscriptions
        = e :: s.subscriptions.toPairs.erase e := if_pos hmem
    rw [hdest, replyDestination_of_none hreply, hfront]
    rfl

/-- Replies without `reply-to`. After any live frames that leave an active subscription, such a request
is answered on the destination of the earliest of them whatever the order of the map, and on the same
one in all orders, exactly when all active subscriptions are for one destination. -/
theorem first_subscription_iff (srv : Server) (frames : List Frame) (f : Frame)
    (hlive : liveFrames false frames = frames) (hreply : f.header "reply-to" = none)
    (hactive : active frames ≠ [])
    (hanswered : ∀ order horder s,
      feed (handleFrame (srv.withOrder order horder)) Session.init frames = .next s →
        (messageFor (srv.withOrder order horder) s f).isSome = true) :
    ((∀ dest, MayAnswerOn srv frames f dest → dest = (active frames).head?.map Prod.snd) ∧
      ∀ dest dest', MayAnswerOn srv frames f dest → MayAnswerOn srv frames f dest' → dest = dest') ↔
      ∀ e ∈ active frames, ∀ e' ∈ active frames, e.2 = e'.2 := by
  simp only [mayAnswerOn_iff hlive hreply hactive hanswered]
  constructor
  · rintro ⟨-, hsame⟩ e he e' he'
    exact Option.some.inj (hsame _ _ ⟨e, he, rfl⟩ ⟨e', he', rfl⟩)
  · intro hone
    constructor
    · rintro dest ⟨e, he, rfl⟩
      obtain ⟨first, rest, hfirst⟩ := List.exists_cons_of_ne_nil hactive
      rw [hone e he first (by simp [hfirst]), hfirst]
      rfl
    · rintro dest dest' ⟨e, he, rfl⟩ ⟨e', he', rfl⟩
      rw [hone e he e' he']

/-- Two subscriptions to one queue. -/
def oneQueue : List Frame :=
  [Frame.new "CONNECT", (subscribeTo "/queue/a").withHeader "id" "1",
    (subscribeTo "/queue/a").withHeader "id" "2"]

/-- Two subscriptions to one queue leave no choice of the queue. -/
theorem first_subscription_one_queue :
    active oneQueue = [("1", "/queue/a"), ("2", "/queue/a")] ∧
      ∀ dest, MayAnswerOn pingServer oneQueue (Frame.new "SEND") dest → dest = some "/queue/a" :=
  ⟨by decide, ((first_subscription_iff pingServer oneQueue (Frame.new "SEND") (by decide) (by decide)
    (by decide) (fun _ _ _ _ => rfl)).mpr (by decide)).1⟩

/-- Two subscriptions to two queues. -/
def twoQueues : List Frame :=
  [Frame.new "CONNECT", (subscribeTo "/queue/a").withHeader "id" "1",
    (subscribeTo "/queue/b").withHeader "id" "2"]

/-- The second of them may get the replies. -/
theorem first_subscription_skipped : ¬∀ srv frames f, liveFrames false frames = frames →
    f.header "reply-to" = none → active frames ≠ [] →
    (∀ dest, MayAnswerOn srv frames f dest → dest = (active frames).head?.map Prod.snd) ∧
      ∀ dest dest', MayAnswerOn srv frames f dest → MayAnswerOn srv frames f dest' → dest = dest' := by
  intro h
  have hfirst := (h pingServer twoQueues (Frame.new "SEND") (by decide) (by decide) (by decide)).1
  have hmay : MayAnswerOn pingServer twoQueues (Frame.new "SEND") (some "/queue/b") :=
    (mayAnswerOn_iff (by decide) (by decide) (by decide) (fun _ _ _ _ => rfl) _).mpr
      ⟨("2", "/queue/b"), by decide, rfl⟩
  exact absurd (hfirst _ hmay) (by decide)

end Vdsm.Rpc
