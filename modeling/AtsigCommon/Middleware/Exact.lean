import AtsigCommon.Middleware.BodyLimit
import Mathlib.Tactic.Linarith

/-!
# What the body limit does to a request

A request that is not refused passes unchanged; one that is refused is answered with the two
messages of the refusal and nothing else.  This is for apps that read the body before they answer,
with one call at a time.

* `Open`, `Closed` — the invariant before and after a refusal; `Open.step` and `Closed.step` say
  what a step does to it.
* `body_limit_exact` — what an app and a server get.
-/

namespace Atsig

open Coroutine Python

/-! ## Bodies -/

/-- The bytes of the body in some messages. -/
def bodyBytes (messages : List Message) : ℕ :=
  (messages.map fun message => if message.isRequest then message.bodyLength else 0).sum

@[simp] lemma bodyBytes_nil : bodyBytes [] = 0 := rfl

lemma bodyBytes_append (l m : List Message) : bodyBytes (l ++ m) = bodyBytes l + bodyBytes m := by
  simp [bodyBytes]

lemma bodyBytes_singleton (message : Message) : bodyBytes [message]
    = if message.isRequest then message.bodyLength else 0 := by
  simp [bodyBytes]

lemma bodyBytes_disconnects (n : ℕ) : bodyBytes (List.replicate n .disconnect) = 0 := by
  simp [bodyBytes, Message.isRequest, Message.disconnect]

/-- Messages without a part of the body have no bytes of it. -/
lemma bodyBytes_of_none {messages : List Message} (h : ∀ m ∈ messages, m.isRequest = false) :
    bodyBytes messages = 0 := by
  induction messages with
  | nil => rfl
  | cons m ms ih =>
      have hm := h m (List.mem_cons_self ..)
      have hms := ih fun m' hm' => h m' (List.mem_cons_of_mem _ hm')
      rw [show m :: ms = [m] ++ ms from rfl, bodyBytes_append, bodyBytes_singleton, hms]
      simp [hm]

/-- The body is over the limit: a part of it has come, and there are more bytes than that. -/
def OverLimit (mw : BodyLimit) (messages : List Message) : Prop :=
  (∃ m ∈ messages, m.isRequest) ∧ mw.maxBodySize < bodyBytes messages

/-- What is not over the limit is within it. -/
lemma bodyBytes_le {mw : BodyLimit} {messages : List Message} (h : ¬ OverLimit mw messages) :
    (bodyBytes messages : ℤ) ≤ max mw.maxBodySize 0 := by
  by_cases hany : ∃ m ∈ messages, m.isRequest
  · have : ¬ mw.maxBodySize < bodyBytes messages := fun hlt => h ⟨hany, hlt⟩
    have := le_max_left mw.maxBodySize 0
    omega
  · have hnone : ∀ m ∈ messages, m.isRequest = false := by
      intro m hm
      by_contra hm'
      exact hany ⟨m, hm, by simpa using hm'⟩
    rw [bodyBytes_of_none hnone]
    exact le_max_right _ _

/-! ## Declared lengths -/

/-- The declared length, when it is a number. -/
def declaredLength (scope : Scope) : Option ℕ :=
  match scope.header "content-length" with
  | none => none
  | some text =>
      if text ≠ [] ∧ text.all Char.isDigit then
        some (text.foldl (fun n c => 10 * n + (c.toNat - '0'.toNat)) 0)
      else none

/-- The header `content-length` is absent, or it is an ASCII text, of at most 4300 digits when it
consists of digits. -/
def PlainLength (scope : Scope) : Prop :=
  ∀ text, scope.header "content-length" = some text →
    (∀ c ∈ text, c.toNat < 128) ∧ (text.all Char.isDigit → text.length ≤ 4300)

lemma all_isDigitLatin1 {text : List Char} (h : ∀ c ∈ text, c.toNat < 128) :
    text.all isDigitLatin1 = text.all Char.isDigit := by
  have hc : ∀ c ∈ text, isDigitLatin1 c = c.isDigit := by
    intro c hc
    have := h c hc
    simp only [isDigitLatin1, List.mem_cons, List.not_mem_nil, or_false, Bool.or_eq_left_iff_imp,
      decide_eq_true_eq]
    omega
  induction text with
  | nil => rfl
  | cons c text ih =>
      rw [List.all_cons, List.all_cons, hc c (List.mem_cons_self ..),
        ih (fun d hd => h d (List.mem_cons_of_mem _ hd))
          fun d hd => hc d (List.mem_cons_of_mem _ hd)]

/-- The check of the declared length. -/
lemma declaredTooLarge_eq (mw : BodyLimit) {scope : Scope} (h : PlainLength scope) :
    declaredTooLarge mw scope
      = .ok ((declaredLength scope).any fun n => decide ((n : ℤ) > mw.maxBodySize)) := by
  rw [declaredTooLarge, declaredLength]
  cases htext : scope.header "content-length" with
  | none => rfl
  | some text =>
      obtain ⟨hascii, hlong⟩ := h text htext
      simp only [all_isDigitLatin1 hascii]
      by_cases hdigits : text ≠ [] ∧ text.all Char.isDigit
      · rw [if_pos hdigits, if_pos hdigits, intOfDigits, if_pos hdigits.2,
          if_pos (hlong hdigits.2)]
        rfl
      · rw [if_neg hdigits, if_neg hdigits]
        rfl

/-! ## Where a call can wait -/

section Points

variable [StandardLibrary] (mw : BodyLimit)

/-- After the last message of the refusal. -/
def afterEnd : Except BodyRaised Unit → BodyFlags → Program bodySig (Option Message)
  | .ok (), flags => .done (.ok (some .disconnect)) flags
  | .error e, flags => .done (.error e) flags

/-- After its first message. -/
def afterStart : Except BodyRaised Unit → BodyFlags → Program bodySig (Option Message)
  | .ok (), flags => .await (.send mw.refusalEnd) flags afterEnd
  | .error e, flags => .done (.error e) flags

/-- After the answer of the server. -/
def afterReceive : Except BodyRaised Message → BodyFlags → Program bodySig (Option Message)
  | .error e, flags => .done (.error e) flags
  | .ok message, flags =>
      if message.isRequest then
        if flags.received + message.bodyLength > mw.maxBodySize then
          .await (.send mw.refusalStart) ⟨flags.received + message.bodyLength, true⟩ (afterStart mw)
        else .done (.ok (some message)) ⟨flags.received + message.bodyLength, flags.rejected⟩
      else .done (.ok (some message)) flags

/-- After a message of the app. -/
def afterSend : Except BodyRaised Unit → BodyFlags → Program bodySig (Option Message)
  | .ok (), flags => .done (.ok none) flags
  | .error e, flags => .done (.error e) flags

/-- After the app. -/
def afterApp : Except BodyRaised Unit → BodyFlags → Program bodySig Unit
  | .ok (), flags => .done (.ok ()) flags
  | .error .clientDisconnect, flags =>
      if flags.rejected then .done (.ok ()) flags else .done (.error .clientDisconnect) flags
  | .error e, flags => .done (.error e) flags

lemma receiveCall_limited (flags : BodyFlags) : receiveCall mw .limited flags
    = if flags.rejected then .done (.ok (some .disconnect)) flags
      else .await .receive flags (afterReceive mw) := by
  obtain ⟨received, rejected⟩ := flags
  cases rejected with
  | true => rfl
  | false =>
      show Program.await _ _ _ = Program.await _ _ _
      congr 1
      funext r flags
      cases r with
      | error e => rfl
      | ok message =>
          obtain ⟨received, rejected⟩ := flags
          show ((limitMessage mw message).bind fun m => Co.ret (some m)) _ = _
          rw [limitMessage, afterReceive]
          split
          · change (Co.bind
              (ite (received + message.bodyLength > mw.maxBodySize) _ _ : Body Message)
              fun m => Co.ret (some m)) ⟨received + message.bodyLength, rejected⟩ = _
            by_cases hlong : received + message.bodyLength > mw.maxBodySize
            · rw [if_pos hlong, if_pos hlong]
              show Program.await _ _ _ = Program.await _ _ _
              congr 1
              funext r flags
              cases r with
              | error e => rfl
              | ok a =>
                  show Program.await _ _ _ = Program.await _ _ _
                  congr 1
                  funext r flags
                  cases r <;> rfl
            · rw [if_neg hlong, if_neg hlong]
              rfl
          · rfl

omit [StandardLibrary] in
lemma sendCall_limited (message : Message) (flags : BodyFlags) : sendCall message .limited flags
    = if flags.rejected then .done (.ok none) flags
      else .await (.send message) flags afterSend := by
  obtain ⟨received, rejected⟩ := flags
  cases rejected with
  | true => rfl
  | false =>
      show Program.await _ _ _ = Program.await _ _ _
      congr 1
      funext r flags
      cases r <;> rfl

omit [StandardLibrary] in
/-- A disconnect after a refusal is the end of it; anything else is passed on. -/
lemma afterApp_eq (r : Except BodyRaised Unit) (flags : BodyFlags) : afterApp r flags
    = if r = .error .clientDisconnect ∧ flags.rejected = true then .done (.ok ()) flags
      else .done r flags := by
  obtain ⟨received, rejected⟩ := flags
  cases r with
  | ok a => rfl
  | error e =>
      cases e with
      | clientDisconnect => cases rejected <;> rfl
      | cancelled => rfl
      | exception e => rfl

omit [StandardLibrary] in
lemma exceptDisconnect_runApp (flags : BodyFlags) :
    exceptDisconnect (runApp .limited) flags = .await (.app .limited) flags afterApp := by
  show Program.await _ _ _ = Program.await _ _ _
  congr 1
  funext r flags
  obtain ⟨received, rejected⟩ := flags
  cases r with
  | ok a => rfl
  | error e =>
      cases e with
      | clientDisconnect => cases rejected <;> rfl
      | cancelled => rfl
      | exception e => rfl

lemma call_limited {scope : Scope} (hhttp : scope.type = "http")
    (hmultipart : isMultipart scope = true) (h : declaredTooLarge mw scope = .ok false)
    (flags : BodyFlags) :
    Body.call mw scope flags = .await (.app .limited) flags afterApp := by
  rw [Body.call, if_neg (by simp [hhttp, hmultipart]), h]
  exact exceptDisconnect_runApp flags

omit [StandardLibrary] in
/-- The end of the app leaves the variables as they are. -/
lemma afterApp_done (r : Except BodyRaised Unit) (flags : BodyFlags) :
    ∃ r', afterApp r flags = .done r' flags := by
  rw [afterApp_eq]
  split_ifs
  · exact ⟨_, rfl⟩
  · exact ⟨_, rfl⟩

/-- The coroutine has ended. -/
def Ended {α : Type} (p : Program bodySig α) : Prop := ∃ r f, p = .done r f

omit [StandardLibrary] in
/-- What waits has not ended. -/
lemma not_ended_await {α : Type} {c : BodyCommand} {f : BodyFlags}
    {k : Except BodyRaised c.Answer → BodyFlags → Program bodySig α} :
    ¬ Ended (Program.await (S := bodySig) c f k) := by
  rintro ⟨r, f, h⟩
  cases h

/-- The call waits for a message of the server. -/
def AtServer (p : Program bodySig (Option Message)) : Prop :=
  ∃ f, p = .await .receive f (afterReceive mw)

/-- The call refuses the request and sends the first message, or the second one. -/
def AtStart (p : Program bodySig (Option Message)) : Prop :=
  ∃ f, p = .await (.send mw.refusalStart) f (afterStart mw)

def AtEnd (p : Program bodySig (Option Message)) : Prop :=
  ∃ f, p = .await (.send mw.refusalEnd) f afterEnd

/-- The call sends a message of the app. -/
def AtSend (p : Program bodySig (Option Message)) : Prop :=
  ∃ m f, p = .await (.send m) f afterSend

/-- `__call__` waits for the app, or has ended. -/
def Serving (p : Program bodySig Unit) : Prop :=
  (∃ f, p = .await (.app .limited) f afterApp) ∨ Ended p

end Points

/-! ## The invariant -/

/-- What the app does: it receives with one call at a time, and gets the body before it sends
anything. -/
def Orderly (s : BodyExchange) : BodyAction → Prop
  | .appReceives _ => ∀ n p, s.calls (.receive n) = some p → Ended p
  | .received _ (.ok message) => message.isRequest → s.fromApp = []
  | _ => True

section Invariant

variable [StandardLibrary] (mw : BodyLimit)

/-- Nothing has been refused. -/
structure Open (s : BodyExchange) : Prop where
  rejected : s.flags.rejected = false
  received : s.flags.received = bodyBytes s.fromServer
  within : ¬ OverLimit mw s.fromServer
  toApp : s.toApp = s.fromServer
  toServer : s.toServer = s.fromApp
  main : Serving s.main
  receives : ∀ n p, s.calls (.receive n) = some p → Ended p ∨ AtServer mw p
  sends : ∀ n p, s.calls (.send n) = some p → Ended p ∨ AtSend p
  alone : ∀ n n' p p', s.calls (.receive n) = some p → s.calls (.receive n') = some p' →
    ¬ Ended p → ¬ Ended p' → n = n'
  quiet : s.fromApp = [] → ∀ n, s.calls (.send n) = none

/-- How far the refusal is: one call makes it, and the others have ended. -/
inductive Refusing (calls : CallId → Option (Program bodySig (Option Message)))
    (toServer : List Message) : Prop
  | start (n : ℕ) (p : Program bodySig (Option Message)) (hcall : calls (.receive n) = some p)
      (hp : AtStart mw p) (hothers : ∀ id q, id ≠ .receive n → calls id = some q → Ended q)
      (hsent : toServer = [mw.refusalStart])
  | finish (n : ℕ) (p : Program bodySig (Option Message)) (hcall : calls (.receive n) = some p)
      (hp : AtEnd mw p) (hothers : ∀ id q, id ≠ .receive n → calls id = some q → Ended q)
      (hsent : toServer = [mw.refusalStart, mw.refusalEnd])
  | complete (hended : ∀ id q, calls id = some q → Ended q)
      (hsent : toServer = [mw.refusalStart, mw.refusalEnd])
  | failed (hended : ∀ id q, calls id = some q → Ended q)
      (hsent : toServer <+: [mw.refusalStart, mw.refusalEnd]) (n : ℕ) (e : BodyRaised)
      (f : BodyFlags) (hfailed : calls (.receive n) = some (.done (.error e) f))

/-- What the app has got of a request that was refused: the messages before the one that passed
the limit, and then the end of the connection. -/
def CutOff (fromServer toApp : List Message) : Prop :=
  ∃ given last n, fromServer = given ++ [last] ∧ ¬ OverLimit mw given
    ∧ toApp = given ++ List.replicate n .disconnect

/-- The request has been refused. -/
structure Closed (s : BodyExchange) : Prop where
  rejected : s.flags.rejected = true
  passed : OverLimit mw s.fromServer
  cutOff : CutOff mw s.fromServer s.toApp
  main : Serving s.main
  refusing : Refusing mw s.calls s.toServer

end Invariant

/-! ## Steps -/

/-- A property of the calls after one of them has run. -/
lemma forall_runCall {calls : CallId → Option (Program bodySig (Option Message))} (id : CallId)
    {p : Program bodySig (Option Message)} {P : CallId → Program bodySig (Option Message) → Prop}
    (hp : P id p) (h : ∀ id' q, id' ≠ id → calls id' = some q → P id' q) :
    ∀ id' q, Function.update calls id (some p) id' = some q → P id' q := by
  intro id' q hq
  by_cases hid : id' = id
  · subst hid
    rw [Function.update_self] at hq
    cases hq
    exact hp
  · rw [Function.update_of_ne hid] at hq
    exact h id' q hid hq

/-- The other calls stay as they are. -/
lemma runCall_of_ne (s : BodyExchange) {id id' : CallId} (p : Program bodySig (Option Message))
    (h : id' ≠ id) : (s.runCall id p).calls id' = s.calls id' :=
  Function.update_of_ne h _ _

section Steps

variable [StandardLibrary] {mw : BodyLimit} {s s' : BodyExchange} {a : BodyAction}

omit [StandardLibrary] in
lemma Serving.channel {p : Program bodySig Unit} (h : Serving p) {channel : Channel}
    (hc : p.command? = some (.app channel)) : channel = .limited := by
  rcases h with ⟨f, rfl⟩ | ⟨r, f, rfl⟩
  · rw [Program.command?_await] at hc
    injection hc with hc
    injection hc with hc
    exact hc.symm
  · cases hc

omit [StandardLibrary] in
lemma Serving.not_send {message : Message} {f : BodyFlags}
    {k : Except BodyRaised Unit → BodyFlags → Program bodySig Unit} :
    ¬ Serving (.await (.send message) f k) := by
  rintro (⟨f, h⟩ | ⟨r, f, h⟩) <;> cases h

omit [StandardLibrary] in
/-- When the app has ended, `__call__` ends. -/
lemma Serving.appEnds {channel : Channel} {f : BodyFlags}
    {k : Except BodyRaised Unit → BodyFlags → Program bodySig Unit}
    (h : Serving (.await (.app channel) f k)) : k = afterApp := by
  rcases h with ⟨f, h⟩ | ⟨r, f, h⟩
  · cases h
    rfl
  · cases h

/-! ### Before a refusal -/

lemma Open.appReceives (h : Open mw s) {n : ℕ} {channel : Channel}
    (halone : Orderly s (.appReceives n)) (hmain : s.main.command? = some (.app channel)) :
    Open mw (s.runCall (.receive n) (receiveCall mw channel s.flags)) := by
  rw [h.main.channel hmain, receiveCall_limited, if_neg (by simp [h.rejected])]
  have hreceives := forall_runCall (.receive n)
    (p := .await .receive s.flags (afterReceive mw))
    (P := fun id q => ∀ m, id = .receive m → Ended q ∨ (AtServer mw q ∧ m = n))
    (fun m hm => .inr ⟨⟨_, rfl⟩, by injection hm with hm; exact hm.symm⟩)
    (fun id q _ hq m hm => .inl (halone m q (by rw [← hm]; exact hq)))
  refine ⟨h.rejected, h.received, h.within, ?_, ?_, h.main, ?_, ?_, ?_, ?_⟩
  · exact (List.append_nil _).trans h.toApp
  · exact (List.append_nil _).trans h.toServer
  · intro m p hp
    exact (hreceives _ p hp m rfl).imp_right And.left
  · intro m p hp
    exact h.sends m p (by rwa [runCall_of_ne _ _ (by simp)] at hp)
  · intro m m' p p' hp hp' hrun hrun'
    have hm := ((hreceives _ p hp m rfl).resolve_left hrun).2
    have hm' := ((hreceives _ p' hp' m' rfl).resolve_left hrun').2
    rw [hm, hm']
  · intro hquiet m
    rw [runCall_of_ne _ _ (by simp)]
    exact h.quiet hquiet m

lemma Open.appSends (h : Open mw s) {n : ℕ} {message : Message} {channel : Channel}
    (hmain : s.main.command? = some (.app channel)) :
    Open mw ({ s with fromApp := s.fromApp ++ [message] }.runCall (.send n)
      (sendCall message channel s.flags)) := by
  rw [h.main.channel hmain, sendCall_limited, if_neg (by simp [h.rejected])]
  refine ⟨h.rejected, h.received, h.within, ?_, ?_, h.main, ?_, ?_, ?_, ?_⟩
  · exact (List.append_nil _).trans h.toApp
  · exact congrArg (· ++ [message]) h.toServer
  · intro m p hp
    exact h.receives m p (by rwa [runCall_of_ne _ _ (by simp)] at hp)
  · intro m p hp
    refine forall_runCall (.send n) (P := fun id q => ∀ m, id = .send m → Ended q ∨ AtSend q) ?_ ?_
      _ p hp m rfl
    · exact fun m _ => .inr ⟨message, s.flags, rfl⟩
    · intro id q _ hq m hm
      exact h.sends m q (by rw [← hm]; exact hq)
  · intro m m' p p' hp hp'
    rw [runCall_of_ne _ _ (by simp)] at hp hp'
    exact h.alone m m' p p' hp hp'
  · intro hquiet
    exact absurd hquiet (by simp [BodyExchange.runCall])

/-- A call for receiving ends with what the server has given, and the request is not refused. -/
lemma Open.passes (h : Open mw s) (n : ℕ) {r : Except BodyRaised (Option Message)}
    {f : BodyFlags} (messages : List Message) (hreturned : returnedBy (.done r f) = messages)
    (hrejected : f.rejected = false) (hreceived : f.received = bodyBytes (s.fromServer ++ messages))
    (hwithin : ¬ OverLimit mw (s.fromServer ++ messages)) :
    Open mw
      ({ s with fromServer := s.fromServer ++ messages }.runCall (.receive n) (.done r f)) := by
  have hreceives := forall_runCall (.receive n) (p := .done r f)
    (P := fun id q => ∀ m, id = .receive m → Ended q ∨ (AtServer mw q ∧ s.calls id = some q))
    (fun m _ => .inl ⟨r, f, rfl⟩)
    (fun id q _ hq m hm => by
      subst hm
      exact (h.receives m q hq).imp_right fun hq' => ⟨hq', hq⟩)
  refine ⟨hrejected, hreceived, hwithin, ?_, ?_, h.main, ?_, ?_, ?_, ?_⟩
  · show s.toApp ++ returnedBy (.done r f) = s.fromServer ++ messages
    rw [h.toApp, hreturned]
  · exact (List.append_nil _).trans h.toServer
  · intro m p hp
    exact (hreceives _ p hp m rfl).imp_right And.left
  · intro m p hp
    exact h.sends m p (by rwa [runCall_of_ne _ _ (by simp)] at hp)
  · intro m m' p p' hp hp' hrun hrun'
    have hm := ((hreceives _ p hp m rfl).resolve_left hrun).2
    have hm' := ((hreceives _ p' hp' m' rfl).resolve_left hrun').2
    exact h.alone m m' p p' hm hm' hrun hrun'
  · intro hquiet m
    rw [runCall_of_ne _ _ (by simp)]
    exact h.quiet hquiet m

/-- A call for sending ends. -/
lemma Open.sent (h : Open mw s) (n : ℕ) {p : Program bodySig (Option Message)}
    (hcall : s.calls (.send n) = some p) {r : Except BodyRaised (Option Message)}
    (hreturned : returnedBy (.done r s.flags) = []) :
    Open mw (s.runCall (.send n) (.done r s.flags)) := by
  refine ⟨h.rejected, h.received, h.within, ?_, ?_, h.main, ?_, ?_, ?_, ?_⟩
  · show s.toApp ++ returnedBy (.done r s.flags) = s.fromServer
    rw [h.toApp, hreturned, List.append_nil]
  · exact (List.append_nil _).trans h.toServer
  · intro m p hp
    exact h.receives m p (by rwa [runCall_of_ne _ _ (by simp)] at hp)
  · intro m p hp
    refine forall_runCall (.send n) (P := fun id q => ∀ m, id = .send m → Ended q ∨ AtSend q) ?_ ?_
      _ p hp m rfl
    · exact fun m _ => .inl ⟨r, s.flags, rfl⟩
    · intro id q _ hq m hm
      exact h.sends m q (by rw [← hm]; exact hq)
  · intro m m' p p' hp hp'
    rw [runCall_of_ne _ _ (by simp)] at hp hp'
    exact h.alone m m' p p' hp hp'
  · intro hquiet
    have hnone := h.quiet hquiet n
    rw [hcall] at hnone
    cases hnone

/-- The part of the body that passes the limit is refused.  The app has sent nothing yet, so that
the call which refuses it is the only one. -/
lemma Open.refuses (h : Open mw s) {n : ℕ} {p : Program bodySig (Option Message)}
    (hcall : s.calls (.receive n) = some p) (hp : ¬ Ended p) {message : Message}
    (hrequest : message.isRequest = true) (hquiet : s.fromApp = [])
    (hover : s.flags.received + message.bodyLength > mw.maxBodySize) :
    Closed mw ({ s with fromServer := s.fromServer ++ [message] }.runCall (.receive n)
      (.await (.send mw.refusalStart) ⟨s.flags.received + message.bodyLength, true⟩
        (afterStart mw))) := by
  refine ⟨rfl, ?_, ?_, h.main, ?_⟩
  · refine ⟨⟨message, by simp [BodyExchange.runCall], hrequest⟩, ?_⟩
    show mw.maxBodySize < bodyBytes (s.fromServer ++ [message])
    rw [bodyBytes_append, bodyBytes_singleton, if_pos hrequest]
    have := h.received
    omega
  · refine ⟨s.fromServer, message, 0, rfl, h.within, ?_⟩
    show s.toApp ++ [] = s.fromServer ++ []
    rw [h.toApp]
  · refine .start n _ (Function.update_self _ _ _) ⟨_, rfl⟩ ?_ ?_
    · intro id q hid hq
      rw [runCall_of_ne _ _ hid] at hq
      cases id with
      | receive m =>
          by_contra hrun
          exact hid (congrArg _ (h.alone m n q p hq hcall hrun hp))
      | send m =>
          have hnone := h.quiet hquiet m
          rw [show s.calls (.send m) = some q from hq] at hnone
          cases hnone
    · show s.toServer ++ [mw.refusalStart] = [mw.refusalStart]
      rw [h.toServer, hquiet, List.nil_append]

/-- The server answers. -/
lemma Open.received_step (h : Open mw s) {n : ℕ} {f : BodyFlags}
    {k : Except BodyRaised Message → BodyFlags → Program bodySig (Option Message)}
    {r : Except BodyRaised Message} (horderly : Orderly s (.received (.receive n) r))
    (hcall : s.calls (.receive n) = some (.await .receive f k)) :
    let s' := { s with fromServer := s.fromServer ++ answered r }.runCall (.receive n) (k r s.flags)
    Open mw s' ∨ Closed mw s' := by
  have hk : k = afterReceive mw := by
    rcases h.receives n _ hcall with ⟨r, f, h⟩ | ⟨f, h⟩ <;> cases h
    rfl
  subst hk
  have hwaits : ¬ Ended (Program.await .receive f (afterReceive mw)) := not_ended_await
  cases r with
  | error e =>
      left
      refine h.passes n [] rfl h.rejected ?_ ?_
      · rw [List.append_nil, h.received]
      · rw [List.append_nil]
        exact h.within
  | ok message =>
      dsimp only [afterReceive, answered]
      by_cases hrequest : message.isRequest = true
      · rw [if_pos hrequest]
        have hbytes : s.flags.received + message.bodyLength
            = bodyBytes (s.fromServer ++ [message]) := by
          rw [bodyBytes_append, bodyBytes_singleton, if_pos hrequest, h.received]
          norm_num
        by_cases hover : s.flags.received + message.bodyLength > mw.maxBodySize
        · rw [if_pos hover]
          exact .inr (h.refuses hcall hwaits hrequest (horderly hrequest) hover)
        · rw [if_neg hover]
          refine .inl (h.passes n [message] rfl h.rejected hbytes ?_)
          rintro ⟨-, hlong⟩
          omega
      · rw [if_neg hrequest]
        have hbytes : bodyBytes (s.fromServer ++ [message]) = bodyBytes s.fromServer := by
          rw [bodyBytes_append, bodyBytes_singleton, if_neg hrequest, Nat.add_zero]
        refine .inl (h.passes n [message] rfl h.rejected ?_ ?_)
        · rw [hbytes, h.received]
        · rintro ⟨⟨m, hm, hm'⟩, hlong⟩
          refine h.within ⟨⟨m, ?_, hm'⟩, by rwa [hbytes] at hlong⟩
          rcases List.mem_append.mp hm with hm | hm
          · exact hm
          · rw [List.mem_singleton.mp hm] at hm'
            exact absurd hm' hrequest

lemma Open.step (h : Open mw s) (horderly : Orderly s a) (hstep : s.Step mw a s') :
    Open mw s' ∨ Closed mw s' := by
  cases hstep with
  | appReceives n channel hmain hnew => exact .inl (h.appReceives horderly hmain)
  | appSends n message channel hmain hnew => exact .inl (h.appSends hmain)
  | received id f k r hcall =>
      cases id with
      | receive n => exact h.received_step horderly hcall
      | send n => rcases h.sends n _ hcall with ⟨r, f, h⟩ | ⟨m, f, h⟩ <;> cases h
  | taken id message f k r hcall =>
      cases id with
      | receive n => rcases h.receives n _ hcall with ⟨r, f, h⟩ | ⟨f, h⟩ <;> cases h
      | send n =>
          have hk : k = afterSend := by
            rcases h.sends n _ hcall with ⟨r, f, h⟩ | ⟨m, f, h⟩ <;> cases h
            rfl
          subst hk
          cases r with
          | ok a => exact .inl (h.sent n hcall rfl)
          | error e => exact .inl (h.sent n hcall rfl)
  | mainTaken message f k r hmain => exact absurd (hmain ▸ h.main) Serving.not_send
  | appEnds channel f k r hmain =>
      have hk := Serving.appEnds (hmain ▸ h.main)
      subst hk
      obtain ⟨r', hr'⟩ := afterApp_done r s.flags
      rw [hr']
      left
      exact ⟨h.rejected, h.received, h.within, h.toApp, (List.append_nil _).trans h.toServer,
        .inr ⟨_, _, rfl⟩, h.receives, h.sends, h.alone, h.quiet⟩

/-! ### After it -/

/-- A call that starts after a refusal has begun, and ends at once. -/
lemma Refusing.runCall (h : Refusing mw s.calls s.toServer) {id : CallId}
    (hnew : s.calls id = none) {r : Except BodyRaised (Option Message)} {f : BodyFlags}
    (fromApp : List Message) :
    Refusing mw ({ s with fromApp := fromApp }.runCall id (.done r f)).calls
      ({ s with fromApp := fromApp }.runCall id (.done r f)).toServer := by
  have hne : ∀ {id' p}, s.calls id' = some p → id' ≠ id := by
    intro id' p hp hid
    rw [hid, hnew] at hp
    cases hp
  have hkept : ∀ {id' p}, s.calls id' = some p →
      ({ s with fromApp := fromApp }.runCall id (.done r f)).calls id' = some p := by
    intro id' p hp
    rw [runCall_of_ne _ _ (hne hp)]
    exact hp
  have hothers : ∀ {P : CallId → Prop}, (∀ id' q, P id' → s.calls id' = some q → Ended q) →
      ∀ id' q, P id' → ({ s with fromApp := fromApp }.runCall id (.done r f)).calls id' = some q →
        Ended q := by
    intro P h id' q hP
    exact fun hq => forall_runCall id (P := fun id' q => P id' → Ended q) (fun _ => ⟨r, f, rfl⟩)
      (fun id' q _ hq hP => h id' q hP hq) id' q hq hP
  have hsent : ({ s with fromApp := fromApp }.runCall id (.done r f)).toServer = s.toServer :=
    List.append_nil _
  rw [hsent]
  cases h with
  | start n p hcall hp ho hsent => exact .start n p (hkept hcall) hp (hothers ho) hsent
  | finish n p hcall hp ho hsent => exact .finish n p (hkept hcall) hp (hothers ho) hsent
  | complete hended hsent =>
      exact .complete (fun id q => hothers (P := fun _ => True) (fun id q _ => hended id q) id q
        trivial) hsent
  | failed hended hsent n e f hfailed =>
      exact .failed (fun id q => hothers (P := fun _ => True) (fun id q _ => hended id q) id q
        trivial) hsent n e f (hkept hfailed)

omit [StandardLibrary] in
lemma CutOff.disconnect {fromServer toApp : List Message} (h : CutOff mw fromServer toApp) :
    CutOff mw fromServer (toApp ++ [.disconnect]) := by
  obtain ⟨given, last, n, hserver, hgiven, happ⟩ := h
  exact ⟨given, last, n + 1, hserver, hgiven, by
    rw [happ, List.append_assoc, ← List.replicate_succ']⟩

omit [StandardLibrary] in
lemma CutOff.append_nil {fromServer toApp : List Message} (h : CutOff mw fromServer toApp) :
    CutOff mw fromServer (toApp ++ []) := by
  rwa [List.append_nil]

omit [StandardLibrary] in
/-- The call that waits is the one that has not ended. -/
lemma eq_of_others_ended {calls : CallId → Option (Program bodySig (Option Message))}
    {id id' : CallId} (ho : ∀ id q, id ≠ id' → calls id = some q → Ended q) {c : BodyCommand}
    {f : BodyFlags} {k : Except BodyRaised c.Answer → BodyFlags → Program bodySig (Option Message)}
    (hcall : calls id = some (.await c f k)) : id = id' := by
  by_contra hid
  exact not_ended_await (ho id _ hid hcall)

/-- No call waits for the server. -/
lemma Refusing.not_receive {toServer : List Message} (h : Refusing mw s.calls toServer)
    {id : CallId} {f : BodyFlags}
    {k : Except BodyRaised Message → BodyFlags → Program bodySig (Option Message)} :
    s.calls id ≠ some (.await .receive f k) := by
  intro hcall
  cases h with
  | start n p hcall' hp ho hsent =>
      obtain rfl := eq_of_others_ended ho hcall
      rw [hcall'] at hcall
      obtain ⟨f, rfl⟩ := hp
      cases hcall
  | finish n p hcall' hp ho hsent =>
      obtain rfl := eq_of_others_ended ho hcall
      rw [hcall'] at hcall
      obtain ⟨f, rfl⟩ := hp
      cases hcall
  | complete hended hsent => exact not_ended_await (hended id _ hcall)
  | failed hended hsent n e f hfailed => exact not_ended_await (hended id _ hcall)

omit [StandardLibrary] in
/-- The call that refuses was the last one that had not ended. -/
lemma ended_runCall {n : ℕ} {r : Except BodyRaised (Option Message)} {f : BodyFlags}
    (ho : ∀ id q, id ≠ .receive n → s.calls id = some q → Ended q) :
    ∀ id q, (s.runCall (.receive n) (.done r f)).calls id = some q → Ended q :=
  forall_runCall _ (P := fun _ q => Ended q) ⟨_, _, rfl⟩ ho

/-- The server fails to take a message of the refusal, and the refusal ends there. -/
lemma Closed.fails (h : Closed mw s) {n : ℕ} {e : BodyRaised} {f : BodyFlags}
    (ho : ∀ id q, id ≠ .receive n → s.calls id = some q → Ended q)
    (hsent : s.toServer <+: [mw.refusalStart, mw.refusalEnd]) (hrejected : f.rejected = true) :
    Closed mw (s.runCall (.receive n) (.done (.error e) f)) := by
  refine ⟨hrejected, h.passed, h.cutOff.append_nil, h.main,
    .failed (ended_runCall ho) ?_ n e f (Function.update_self ..)⟩
  show s.toServer ++ [] <+: _
  rwa [List.append_nil]

/-- The server has taken a message of the refusal. -/
lemma Closed.taken (h : Closed mw s) {id : CallId} {message : Message} {f : BodyFlags}
    {k : Except BodyRaised Unit → BodyFlags → Program bodySig (Option Message)}
    {r : Except BodyRaised Unit} (hcall : s.calls id = some (.await (.send message) f k)) :
    Closed mw (s.runCall id (k r s.flags)) := by
  cases h.refusing with
  | start n p hcall' hp ho hsent =>
      obtain rfl := eq_of_others_ended ho hcall
      rw [hcall'] at hcall
      obtain ⟨f, rfl⟩ := hp
      cases hcall
      cases r with
      | ok a =>
          refine ⟨h.rejected, h.passed, h.cutOff.append_nil, h.main,
            .finish n _ (Function.update_self ..) ⟨_, rfl⟩ ?_ ?_⟩
          · intro id q hid hq
            exact ho id q hid (by rwa [runCall_of_ne _ _ hid] at hq)
          · show s.toServer ++ [mw.refusalEnd] = _
            rw [hsent]
            rfl
      | error e =>
          have hstarted : s.toServer <+: [mw.refusalStart, mw.refusalEnd] := by
            rw [hsent]
            exact ⟨[mw.refusalEnd], rfl⟩
          exact h.fails ho hstarted h.rejected
  | finish n p hcall' hp ho hsent =>
      obtain rfl := eq_of_others_ended ho hcall
      rw [hcall'] at hcall
      obtain ⟨f, rfl⟩ := hp
      cases hcall
      cases r with
      | ok a =>
          refine ⟨h.rejected, h.passed, h.cutOff.disconnect, h.main,
            .complete (ended_runCall ho) ?_⟩
          show s.toServer ++ [] = _
          rw [hsent]
          rfl
      | error e =>
          have hended : s.toServer <+: [mw.refusalStart, mw.refusalEnd] := by
            rw [hsent]
          exact h.fails ho hended h.rejected
  | complete hended hsent => exact absurd (hended id _ hcall) not_ended_await
  | failed hended hsent n e f hfailed => exact absurd (hended id _ hcall) not_ended_await

lemma Closed.step (h : Closed mw s) (hstep : s.Step mw a s') : Closed mw s' := by
  cases hstep with
  | appReceives n channel hmain hnew =>
      rw [h.main.channel hmain, receiveCall_limited, if_pos h.rejected]
      exact ⟨h.rejected, h.passed, h.cutOff.disconnect, h.main, h.refusing.runCall hnew s.fromApp⟩
  | appSends n message channel hmain hnew =>
      rw [h.main.channel hmain, sendCall_limited, if_pos h.rejected]
      exact ⟨h.rejected, h.passed, h.cutOff.append_nil, h.main, h.refusing.runCall hnew _⟩
  | received id f k r hcall => exact absurd hcall h.refusing.not_receive
  | taken id message f k r hcall => exact h.taken hcall
  | mainTaken message f k r hmain => exact absurd (hmain ▸ h.main) Serving.not_send
  | appEnds channel f k r hmain =>
      have hk := Serving.appEnds (hmain ▸ h.main)
      subst hk
      obtain ⟨r', hr'⟩ := afterApp_done r s.flags
      rw [hr']
      refine ⟨h.rejected, h.passed, h.cutOff, .inr ⟨_, _, rfl⟩, ?_⟩
      show Refusing mw s.calls (s.toServer ++ [])
      rw [List.append_nil]
      exact h.refusing

end Steps

/-! ## A declared length over the limit -/

section Declared

variable [StandardLibrary] {mw : BodyLimit} {s s' : BodyExchange} {a : BodyAction}

/-- After the last message of a refusal by `__call__`. -/
def afterTurnEnd (r : Except BodyRaised Unit) (flags : BodyFlags) : Program bodySig Unit :=
  .done r flags

/-- After its first message. -/
def afterTurnStart (mw : BodyLimit) : Except BodyRaised Unit → BodyFlags → Program bodySig Unit
  | .ok (), flags => .await (.send mw.refusalEnd) flags afterTurnEnd
  | .error e, flags => .done (.error e) flags

lemma reject_eq (flags : BodyFlags) :
    reject mw flags = .await (.send mw.refusalStart) flags (afterTurnStart mw) := by
  show Program.await _ _ _ = Program.await _ _ _
  congr 1
  funext r flags
  cases r with
  | error e => rfl
  | ok a =>
      show Program.await _ _ _ = Program.await _ _ _
      congr 1

/-- `__call__`, of an upload that declares too much. -/
lemma call_refused (hhttp : scope.type = "http") (hmultipart : isMultipart scope = true)
    (h : declaredTooLarge mw scope = .ok true) (flags : BodyFlags) :
    Body.call mw scope flags = .await (.send mw.refusalStart) flags (afterTurnStart mw) := by
  rw [Body.call, if_neg (by simp [hhttp, hmultipart]), h]
  exact reject_eq flags

/-- How far the refusal by `__call__` is. -/
inductive Turning (mw : BodyLimit) : Program bodySig Unit → List Message → Prop
  | start (f : BodyFlags) :
      Turning mw (.await (.send mw.refusalStart) f (afterTurnStart mw)) [mw.refusalStart]
  | finish (f : BodyFlags) :
      Turning mw (.await (.send mw.refusalEnd) f afterTurnEnd) [mw.refusalStart, mw.refusalEnd]
  | complete (f : BodyFlags) : Turning mw (.done (.ok ()) f) [mw.refusalStart, mw.refusalEnd]
  | failed (e : BodyRaised) (f : BodyFlags) (toServer : List Message)
      (hsent : toServer <+: [mw.refusalStart, mw.refusalEnd]) :
      Turning mw (.done (.error e) f) toServer

/-- `__call__` refuses the request, and the app never runs. -/
structure Turned (mw : BodyLimit) (s : BodyExchange) : Prop where
  calls : ∀ id, s.calls id = none
  fromServer : s.fromServer = []
  toApp : s.toApp = []
  fromApp : s.fromApp = []
  turning : Turning mw s.main s.toServer

lemma Turning.taken {toServer : List Message} {message : Message} {f : BodyFlags}
    {k : Except BodyRaised Unit → BodyFlags → Program bodySig Unit}
    (h : Turning mw (.await (.send message) f k) toServer) (r : Except BodyRaised Unit)
    (flags : BodyFlags) : Turning mw (k r flags) (toServer ++ sentBy (k r flags)) := by
  cases h with
  | start =>
      cases r with
      | ok a => exact .finish flags
      | error e => exact .failed e flags _ ⟨[mw.refusalEnd], rfl⟩
  | finish =>
      cases r with
      | ok a => exact .complete flags
      | error e => exact .failed e flags _ List.prefix_rfl

/-- The app is not called. -/
lemma Turning.not_app {p : Program bodySig Unit} {toServer : List Message}
    (h : Turning mw p toServer) (channel : Channel) : p.command? ≠ some (.app channel) := by
  cases h <;> simp

lemma Turned.step (h : Turned mw s) (hstep : s.Step mw a s') : Turned mw s' := by
  have happ := h.turning.not_app
  cases hstep with
  | appReceives n channel hmain hnew => exact absurd hmain (happ channel)
  | appSends n message channel hmain hnew => exact absurd hmain (happ channel)
  | received id f k r hcall => exact absurd ((h.calls id).symm.trans hcall) (by simp)
  | taken id message f k r hcall => exact absurd ((h.calls id).symm.trans hcall) (by simp)
  | mainTaken message f k r hmain =>
      exact ⟨h.calls, h.fromServer, h.toApp, h.fromApp,
        Turning.taken (hmain ▸ h.turning) r s.flags⟩
  | appEnds channel f k r hmain => exact absurd (congrArg Program.command? hmain) (happ channel)

end Declared

/-! ## Requests -/

section Requests

variable [StandardLibrary] (mw : BodyLimit) {scope : Scope}

/-- A request with a multipart body. -/
structure Multipart (scope : Scope) : Prop where
  http : scope.type = "http"
  multipart : isMultipart scope = true

/-- The declared length is not over the limit. -/
def DeclaredWithin (scope : Scope) : Prop :=
  ∀ n, declaredLength scope = some n → (n : ℤ) ≤ mw.maxBodySize

/-- Every exchange is in one of three states: before a refusal or after it, or the declared length
was refused. -/
lemma exchange_cases (hscope : Multipart scope) (hlength : PlainLength scope) {s : BodyExchange}
    (h : BodyExchange.Reachable mw Orderly scope s) :
    (DeclaredWithin mw scope ∧ (Open mw s ∨ Closed mw s))
      ∨ (¬ DeclaredWithin mw scope ∧ Turned mw s) := by
  have hdeclared := declaredTooLarge_eq mw hlength
  by_cases hwithin : DeclaredWithin mw scope
  · refine .inl ⟨hwithin, ?_⟩
    have hfalse : declaredTooLarge mw scope = .ok false := by
      rw [hdeclared]
      cases hn : declaredLength scope with
      | none => rfl
      | some n =>
          have := hwithin n hn
          simp [this]
    induction h with
    | init =>
        left
        have hcall := call_limited mw hscope.http hscope.multipart hfalse {}
        refine ⟨rfl, rfl, ?_, rfl, ?_, ?_, ?_, ?_, ?_, ?_⟩
        · rintro ⟨⟨m, hm, -⟩, -⟩
          cases hm
        · rw [BodyExchange.init, hcall]
          rfl
        · rw [BodyExchange.init, hcall]
          exact .inl ⟨_, rfl⟩
        · exact fun n p hp => by cases hp
        · exact fun n p hp => by cases hp
        · exact fun n n' p p' hp => by cases hp
        · exact fun _ n => rfl
    | step h ha hstep ih =>
        rcases ih with ih | ih
        · exact ih.step ha hstep
        · exact .inr (ih.step hstep)
  · refine .inr ⟨hwithin, ?_⟩
    have htrue : declaredTooLarge mw scope = .ok true := by
      rw [hdeclared]
      simp only [DeclaredWithin, not_forall, not_le] at hwithin
      obtain ⟨n, hn, hlong⟩ := hwithin
      simp [hn, hlong]
    induction h with
    | init =>
        have hcall := call_refused hscope.http hscope.multipart htrue {}
        refine ⟨fun _ => rfl, rfl, rfl, rfl, ?_⟩
        rw [BodyExchange.init, hcall]
        exact .start {}
    | step h ha hstep ih => exact ih.step hstep

/-- How far the server has got with the refusal. -/
lemma Refusing.sent {s : BodyExchange} (h : Refusing mw s.calls s.toServer) :
    s.toServer <+: [mw.refusalStart, mw.refusalEnd]
      ∧ ((∀ n p, s.calls (.receive n) = some p → ∃ m f, p = .done (.ok m) f) →
          s.toServer = [mw.refusalStart, mw.refusalEnd]) := by
  cases h with
  | start n p hcall hp ho hsent =>
      refine ⟨⟨[mw.refusalEnd], by rw [hsent]; rfl⟩, fun hdone => ?_⟩
      obtain ⟨f, rfl⟩ := hp
      obtain ⟨m, f', hm⟩ := hdone n _ hcall
      cases hm
  | finish n p hcall hp ho hsent => exact ⟨hsent ▸ List.prefix_rfl, fun _ => hsent⟩
  | complete hended hsent => exact ⟨hsent ▸ List.prefix_rfl, fun _ => hsent⟩
  | failed hended hsent n e f hfailed =>
      refine ⟨hsent, fun hdone => ?_⟩
      obtain ⟨m, f', hm⟩ := hdone n _ hfailed
      cases hm

lemma Turning.sent {p : Program bodySig Unit} {toServer : List Message}
    (h : Turning mw p toServer) : toServer <+: [mw.refusalStart, mw.refusalEnd]
      ∧ ∀ f, p = .done (.ok ()) f → toServer = [mw.refusalStart, mw.refusalEnd] := by
  cases h with
  | start f => exact ⟨⟨[mw.refusalEnd], rfl⟩, fun f h => by cases h⟩
  | finish f => exact ⟨List.prefix_rfl, fun f h => by cases h⟩
  | complete f => exact ⟨List.prefix_rfl, fun _ _ => rfl⟩
  | failed e f toServer hsent => exact ⟨hsent, fun f h => by cases h⟩

/-- **The limit is exact and otherwise invisible.**  A multipart request passes unchanged while
the declared length and the body are within the limit.  Beyond it the server gets the refusal and
nothing else: from `__call__`, which does not run the app, when the declared length is over the
limit; from the call that reads past the limit when the body is, and the app is then told that the
client has gone. -/
theorem body_limit_exact (hscope : Multipart scope) (hlength : PlainLength scope) {s : BodyExchange}
    (h : BodyExchange.Reachable mw Orderly scope s) :
    (bodyBytes s.toApp : ℤ) ≤ max mw.maxBodySize 0
      ∧ (DeclaredWithin mw scope → ¬ OverLimit mw s.fromServer →
          s.toApp = s.fromServer ∧ s.toServer = s.fromApp)
      ∧ (¬ DeclaredWithin mw scope →
          s.toApp = [] ∧ s.fromApp = [] ∧ s.toServer <+: [mw.refusalStart, mw.refusalEnd]
            ∧ ∀ f, s.main = .done (.ok ()) f → s.toServer = [mw.refusalStart, mw.refusalEnd])
      ∧ (OverLimit mw s.fromServer →
          CutOff mw s.fromServer s.toApp ∧ s.toServer <+: [mw.refusalStart, mw.refusalEnd]
            ∧ ((∀ n p, s.calls (.receive n) = some p → ∃ m f, p = .done (.ok m) f) →
                s.toServer = [mw.refusalStart, mw.refusalEnd])) := by
  rcases exchange_cases mw hscope hlength h with ⟨hwithin, hopen | hclosed⟩ | ⟨hlong, hturned⟩
  · refine ⟨?_, fun _ _ => ⟨hopen.toApp, hopen.toServer⟩, fun hlong => absurd hwithin hlong,
      fun hover => absurd hover hopen.within⟩
    rw [hopen.toApp]
    exact bodyBytes_le hopen.within
  · refine ⟨?_, fun _ hnot => absurd hclosed.passed hnot, fun hlong => absurd hwithin hlong,
      fun _ => ⟨hclosed.cutOff, hclosed.refusing.sent⟩⟩
    obtain ⟨given, last, n, -, hgiven, happ⟩ := hclosed.cutOff
    rw [happ, bodyBytes_append, bodyBytes_disconnects, Nat.add_zero]
    exact bodyBytes_le hgiven
  · refine ⟨?_, fun hwithin => absurd hwithin hlong, fun _ => ⟨hturned.toApp, hturned.fromApp,
      hturned.turning.sent⟩, ?_⟩
    · rw [hturned.toApp]
      exact le_max_right _ _
    · rintro ⟨⟨m, hm, -⟩, -⟩
      rw [hturned.fromServer] at hm
      cases hm

end Requests

/-- A multipart upload that declares no length. -/
def uploadScope : Scope where
  type := "http"
  headers := [(encodeText "content-type",
    "multipart/form-data".toList.map fun c => c.toNat.toUInt8)]

/-- Three bytes of it. -/
def uploadPart : Message where
  type := "http.request"
  body := some [1, 2, 3]

/-- An upload of three bytes under a limit of two. -/
theorem body_limit_exact_upload : ∃ s,
    @BodyExchange.Reachable plainLibrary { maxBodySize := 2 } Orderly uploadScope s
      ∧ s.fromServer = [uploadPart]
      ∧ CutOff { maxBodySize := 2 } s.fromServer s.toApp := by
  let _ : StandardLibrary := plainLibrary
  let mw : BodyLimit := { maxBodySize := 2 }
  have hscope : Multipart uploadScope := ⟨rfl, by decide +kernel⟩
  have hheader : uploadScope.header "content-length" = none := by decide +kernel
  have hlength : PlainLength uploadScope := by
    intro text htext
    rw [hheader] at htext
    cases htext
  let s₁ := (BodyExchange.init mw uploadScope).runCall (.receive 0) (receiveCall mw .limited {})
  have hmain : (BodyExchange.init mw uploadScope).main.command? = some (.app .limited) := by
    with_unfolding_all rfl
  have h₁ : BodyExchange.Reachable mw Orderly uploadScope s₁ := by
    refine .step (a := .appReceives 0) .init ?_ (.appReceives _ 0 .limited hmain rfl)
    intro n p hp
    cases hp
  have hcall : s₁.calls (.receive 0) = some (.await .receive {} (afterReceive mw)) := by
    rw [show s₁.calls (.receive 0) = some (receiveCall mw .limited {}) from rfl,
      receiveCall_limited]
    rfl
  have h₂ := BodyExchange.Reachable.step h₁ (a := .received (.receive 0) (.ok uploadPart))
    (fun _ => rfl) (.received _ _ _ _ _ hcall)
  refine ⟨_, h₂, rfl, ((body_limit_exact mw hscope hlength h₂).2.2.2 ?_).1⟩
  exact ⟨⟨uploadPart, List.mem_singleton_self _, rfl⟩, by decide⟩

end Atsig
