import AtsigCommon.ApiClient.Calls
import AtsigCommon.Redis.Envelope

/-!
# Request ids along a chain of services

A service passes the request id on in two ways: in the header of a call by `BaseAPI`, which
`LoggingContextMiddleware` reads, and in the `meta` of an event.

* `Hop`, `Hop.Takes` — one service calls the next, and the id under which that one works.
* `request_ids_travel` — a valid id stays the same along every chain that does not override it.
-/

namespace Atsig

open Coroutine Python

/-- One service reaches the next one: by a call, with the headers of the client and the id that
would be generated, or by an event. -/
inductive Hop
  | call (defaultHeaders authHeaders headers : Dict String String) (generated : String)
  | event (producer : EventProducer) (args : Emission) (client : ClientText) (cfg : Config)
      (messageId : EntryId)

/-- The caller sets the header of the request id itself. -/
def Hop.Overrides : Hop → Prop
  | .call defaultHeaders authHeaders headers _ =>
      ∃ d ∈ [defaultHeaders, authHeaders, headers], ∃ p ∈ d.items, p.1.toLower = "x-request-id"
  | .event .. => False

section Calls

/-- The header of the request id comes first and stays as it is. -/
lemma requestHeaders_items {rid : String} (hrid : isValidRequestId rid = true)
    {defaultHeaders authHeaders headers : Dict String String}
    (h : ¬ (∃ d ∈ [defaultHeaders, authHeaders, headers], ∃ p ∈ d.items,
      p.1.toLower = "x-request-id")) :
    ∃ items, (requestHeaders rid defaultHeaders authHeaders headers).items
      = ("X-Request-ID", rid) :: items := by
  have hnot : ∀ d ∈ [defaultHeaders, authHeaders, headers],
      "X-Request-ID" ∉ d.items.map Prod.fst := by
    intro d hd hmem
    obtain ⟨p, hp, hkey⟩ := List.mem_map.mp hmem
    exact h ⟨d, hd, p, hp, by rw [hkey]; decide +kernel⟩
  have hfirst : (correlationHeaders rid).items = [("X-Request-ID", rid)] := by
    rw [correlationHeaders, currentRequestId, if_pos hrid]
    rfl
  obtain ⟨items₁, h₁⟩ := Dict.head_merge hfirst (hnot defaultHeaders (by simp))
  obtain ⟨items₂, h₂⟩ := Dict.head_merge h₁ (hnot authHeaders (by simp))
  exact Dict.head_merge h₂ (hnot headers (by simp))

lemma dispatchRequestId_kept {rid : String} (hrid : isValidRequestId rid = true)
    (items : List (String × String)) (generated : String) :
    dispatchRequestId (("X-Request-ID", rid) :: items) generated = rid := by
  have hreceived : receivedHeader (("X-Request-ID", rid) :: items) "X-Request-ID" = some rid := by
    rw [receivedHeader, List.map_cons, List.lookup_cons_self]
  rw [dispatchRequestId, hreceived, resolveRequestId, if_pos hrid]

end Calls

variable [StandardLibrary]

/-- The id under which the next service works, when it is reached under `rid`. -/
inductive Hop.Takes : Hop → String → String → Prop
  | call (defaultHeaders authHeaders headers : Dict String String) (generated rid : String) :
      Takes (.call defaultHeaders authHeaders headers generated) rid
        (dispatchRequestId (requestHeaders rid defaultHeaders authHeaders headers).items generated)
  | event (producer : EventProducer) (args : Emission) (client : ClientText) (cfg : Config)
      (messageId : EntryId) (rid : String) (fields : Dict String String)
      (hemits : Emits producer rid args fields) {rid' action : String} {payload : Payload}
      {s : Self} {tr : List (Exchange consumerSig)} {q : Program consumerSig Unit}
      (hrun : Run (handleMessage cfg messageId (client.fields fields) s) tr q)
      (hcall : .processMessage rid' messageId action payload ∈ commands tr q) :
      Takes (.event producer args client cfg messageId) rid rid'

/-- What an event relies on of `json`. -/
def Hop.Json (rid : String) : Hop → Prop
  | .call .. => True
  | .event _ args _ _ _ => ∀ payload, args.payload = .json payload → WireJson payload rid

/-- The ids along a chain that is entered under `rid`. -/
inductive Chain : List Hop → String → List String → Prop
  | nil (rid : String) : Chain [] rid []
  | cons {hop : Hop} {hops : List Hop} {rid rid' : String} {rids : List String}
      (htakes : hop.Takes rid rid') (hrest : Chain hops rid' rids) :
      Chain (hop :: hops) rid (rid' :: rids)

/-- **The step.**  A hop that does not override a valid id keeps it. -/
lemma Hop.Takes.kept {hop : Hop} {rid rid' : String} (h : hop.Takes rid rid')
    (hrid : isValidRequestId rid = true) (hplain : ¬ hop.Overrides) (hjson : hop.Json rid) :
    rid' = rid := by
  cases h with
  | call defaultHeaders authHeaders headers generated =>
      obtain ⟨items, hitems⟩ := requestHeaders_items hrid hplain
      rw [hitems, dispatchRequestId_kept hrid]
  | event producer args client cfg messageId _ fields hemits hrun hcall =>
      obtain ⟨data, hdata, -⟩ := hemits.eq
      cases hpayload : args.payload with
      | unserializable e =>
          rw [hpayload] at hdata
          cases hdata
      | json payload =>
          have hhandled := emits_handledAs hpayload (hjson payload hpayload) hemits client cfg
            messageId
          obtain ⟨hid, -⟩ := hhandled.calls.run hrun _ hcall _ _ _ _ rfl
          rw [hid, currentRequestId, if_pos hrid]
          rfl

/-- **The run.**  A valid id is the id at every hop. -/
lemma Chain.kept {hops : List Hop} {rid : String} {rids : List String} (h : Chain hops rid rids)
    (hrid : isValidRequestId rid = true) (hplain : ∀ hop ∈ hops, ¬ hop.Overrides)
    (hjson : ∀ hop ∈ hops, hop.Json rid) : ∀ rid' ∈ rids, rid' = rid := by
  induction h with
  | nil rid => exact fun _ h => absurd h List.not_mem_nil
  | @cons hop hops rid rid' rids htakes hrest ih =>
      have hkept := htakes.kept hrid (hplain hop (List.mem_cons_self ..))
        (hjson hop (List.mem_cons_self ..))
      subst hkept
      intro rid'' hmem
      rcases List.mem_cons.mp hmem with rfl | hmem
      · rfl
      · exact ih hrid (fun hop h => hplain hop (List.mem_cons_of_mem _ h))
          (fun hop h => hjson hop (List.mem_cons_of_mem _ h)) rid'' hmem

/-- **Producer and consumer agree, and so does every chain.**  What `emit` writes is handled as
the action and the payload it was given, under the id of the producer when it is valid and under
the id of the entry otherwise.  So a valid id is the id at every hop of a chain of calls and
events, unless a caller overrides the header. -/
theorem request_ids_travel :
    (∀ (producer : EventProducer) (rid : String) (args : Emission) (payload : Payload)
        (fields : Dict String String) (client : ClientText) (cfg : Config) (messageId : EntryId),
      args.payload = .json payload → WireJson payload rid → Emits producer rid args fields →
        HandledAs cfg messageId (client.fields fields)
          (if isValidRequestId rid then rid else toString messageId) args.action payload)
      ∧ ∀ (hops : List Hop) (rid : String) (rids : List String), isValidRequestId rid = true →
          Chain hops rid rids → (∀ hop ∈ hops, ¬ hop.Overrides) → (∀ hop ∈ hops, hop.Json rid) →
            ∀ rid' ∈ rids, rid' = rid := by
  constructor
  · intro producer rid args payload fields client cfg messageId hpayload hjson hemits
    have h := emits_handledAs hpayload hjson hemits client cfg messageId
    rw [currentRequestId] at h
    by_cases hrid : isValidRequestId rid = true
    · rw [if_pos hrid] at h ⊢
      exact h
    · rw [if_neg hrid] at h ⊢
      exact h
  · intro hops rid rids hrid hchain hplain hjson
    exact hchain.kept hrid hplain hjson

/-- The event `ping`, and a call without headers of its own. -/
def pingHop : Hop :=
  .event {} ⟨"events", "ping", .json [], .redisManager, none, none, 1 / 5⟩ .str soloConfig ⟨1, 0⟩

def bareCall : Hop := .call .empty .empty .empty "0a1b2c3d"

omit [StandardLibrary] in
/-- An event and then a call, under a valid id. -/
theorem request_ids_travel_ping : ∃ rids,
    @Chain (readingLibrary [metaJson "abc"]) [pingHop, bareCall] "abc" rids
      ∧ rids.length = 2 ∧ ∀ rid ∈ rids, rid = "abc" := by
  let _ : StandardLibrary := readingLibrary [metaJson "abc"]
  have hrid : isValidRequestId "abc" = true := by decide +kernel
  have hjson : ∀ hop ∈ [pingHop, bareCall], hop.Json "abc" := by
    intro hop hhop
    rcases List.mem_cons.mp hhop with rfl | hhop
    · rintro payload hpayload
      injection hpayload with hpayload
      subst hpayload
      refine ⟨?_, ?_, ?_, ?_⟩
      · with_unfolding_all rfl
      · with_unfolding_all rfl
      · decide +kernel
      · with_unfolding_all rfl
    · rw [List.mem_singleton.mp hhop]
      trivial
  have hplain : ∀ hop ∈ [pingHop, bareCall], ¬ hop.Overrides := by
    intro hop hhop
    rcases List.mem_cons.mp hhop with rfl | hhop
    · exact id
    · rw [List.mem_singleton.mp hhop]
      rintro ⟨d, hd, p, hp, -⟩
      simp only [List.mem_cons, List.not_mem_nil, or_false, or_self] at hd
      rw [hd] at hp
      cases hp
  have hemits : Emits {} "abc" ⟨"events", "ping", .json [], .redisManager, none, none, 1 / 5⟩
      (streamData "ping" "\x7b\x7d" "abc") := by
    refine ⟨[], [], _, .redisManager, "events", none, .nil _, ?_⟩
    with_unfolding_all exact List.mem_singleton_self _
  have hhandled := request_ids_travel.1 {} "abc" _ [] _ .str soloConfig ⟨1, 0⟩ rfl
    (hjson pingHop (List.mem_cons_self ..) [] rfl) hemits
  rw [if_pos hrid] at hhandled
  obtain ⟨tr, q, hrun, hcall⟩ := hhandled.exists_call (by decide) (Self.init soloConfig 0)
  have hchain : Chain [pingHop, bareCall] "abc" ["abc", _] :=
    .cons (.event {} _ .str soloConfig ⟨1, 0⟩ "abc" _ hemits hrun hcall)
      (.cons (.call .empty .empty .empty "0a1b2c3d" "abc") (.nil _))
  exact ⟨_, hchain, rfl, request_ids_travel.2 _ _ _ hrid hchain hplain hjson⟩

end Atsig
