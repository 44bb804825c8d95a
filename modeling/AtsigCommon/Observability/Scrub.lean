import AtsigCommon.Auth.Groups
import AtsigCommon.Python.Values
import AtsigCommon.Uri.Reference

/-!
# What Sentry gets of a URL

`scrub_sentry_event` of `atsig_common.observability` is called with every event before it is sent.
`urlsplit` and `urlunsplit` are parameters, which split a URL into five parts and join them.

* `SentryEvent`, `scrubSentryEvent` — the hook.
* `SameExceptUrl` — two events that differ in their query strings and in some parts of their URLs.
* `scrub_same_iff` — when the hook makes them equal.
-/

namespace Atsig

open Python

/-! ## The hook -/

/-- The five parts of a URL. -/
structure SplitResult where
  scheme : String
  netloc : String
  path : String
  query : String
  fragment : String
  deriving DecidableEq

/-- `urllib.parse` -/
class UrlLibrary where
  urlsplit : String → Except PyException SplitResult
  urlunsplit : SplitResult → String

/-- What the hook reads of an event. -/
structure SentryEvent where
  transaction : Option String
  request : Option (Dict String Json)
  others : Dict String Json

/-- `urlsplit(url)` for something that is no text. -/
def notAText : PyException := ⟨.other, "AttributeError", "object has no attribute 'decode'"⟩

section Hook

variable [UrlLibrary]

/-- The URL with the route template in place of its path, without query and fragment. -/
def templateUrl (transaction : String) : Json → Except PyException String
  | .str url => (UrlLibrary.urlsplit url).map fun parts =>
      UrlLibrary.urlunsplit ⟨parts.scheme, parts.netloc, transaction, "", ""⟩
  | _ => .error notAText

/-- `if url and transaction.startswith("/"):` -/
def scrubUrl (transaction : String) (request : Dict String Json) :
    Except PyException (Dict String Json) :=
  match (request.get? "url").filter Json.truthy with
  | some url =>
      if startsWith transaction "/" then
        (templateUrl transaction url).map fun text => request.set "url" (.str text)
      else .ok request
  | none => .ok request

/-- `scrub_sentry_event` -/
def scrubSentryEvent (event : SentryEvent) : Except PyException SentryEvent :=
  match event.request with
  | none => .ok event
  | some request =>
      if request.items.isEmpty then .ok event
      else (scrubUrl (event.transaction.getD "") request).map fun request =>
        { event with request := some (request.erase ["query_string"]) }

/-! ## Two events -/

/-- `event["request"]["url"]` -/
def SentryEvent.url (event : SentryEvent) : Option Json := event.request.bind fun r => r.get? "url"

/-- `event.get("transaction") or ""` starts with a slash. -/
def SentryEvent.HasRoute (event : SentryEvent) : Prop :=
  startsWith (event.transaction.getD "") "/" = true

/-- The event has a URL that is not empty. -/
def SentryEvent.HasUrl (event : SentryEvent) : Prop := ∃ url ∈ event.url, url.truthy = true

/-- The same event: dictionaries are equal whatever the order of their keys. -/
structure SentryEvent.Same (event event' : SentryEvent) : Prop where
  transaction : event.transaction = event'.transaction
  others : event.others = event'.others
  request : Option.Rel (fun r r' : Dict String Json => ∀ k, r.get? k = r'.get? k)
    event.request event'.request

/-- The hook returns both times, and the same event. -/
def SentryEvent.SameScrub : Except PyException SentryEvent → Except PyException SentryEvent → Prop
  | .ok event, .ok event' => event.Same event'
  | _, _ => False

/-- A URL that is not empty is a text that `urlsplit` splits. -/
def Splits (u : Option Json) : Prop :=
  ∀ url ∈ u, url.truthy = true → ∃ text parts, url = .str text
    ∧ UrlLibrary.urlsplit text = .ok parts

/-- The URLs are the same, or their parts are related; they can be split. -/
def SameUrl (P : SplitResult → SplitResult → Prop) (u u' : Option Json) : Prop :=
  u = u' ∧ Splits u ∨ ∃ url url' parts parts', u = some (.str url) ∧ u' = some (.str url')
    ∧ UrlLibrary.urlsplit url = .ok parts ∧ UrlLibrary.urlsplit url' = .ok parts' ∧ P parts parts'

/-- The events are the same, with the exception of the query string, and of the URLs as `P` has
it. -/
structure SameExceptUrl (P : SplitResult → SplitResult → Prop) (event event' : SentryEvent) :
    Prop where
  transaction : event.transaction = event'.transaction
  others : event.others = event'.others
  request : Option.Rel (fun r r' : Dict String Json =>
    (∀ k, k ≠ "url" → k ≠ "query_string" → r.get? k = r'.get? k)
      ∧ SameUrl P (r.get? "url") (r'.get? "url")) event.request event'.request

/-- The URLs differ in the query and in the fragment. -/
def SameExceptQuery (parts parts' : SplitResult) : Prop :=
  parts.scheme = parts'.scheme ∧ parts.netloc = parts'.netloc ∧ parts.path = parts'.path

/-- The URLs differ in the path, too. -/
def SameSite (parts parts' : SplitResult) : Prop :=
  parts.scheme = parts'.scheme ∧ parts.netloc = parts'.netloc

/-- `urlunsplit` joins the parts: the path is a part of the URL. -/
def JoinsPath : Prop :=
  ∀ parts : SplitResult, parts.path.toList <:+: (UrlLibrary.urlunsplit parts).toList

/-! ## What becomes of the URL -/

/-- The value of `url` after the hook. -/
def scrubbedUrl (transaction : String) (u : Option Json) : Except PyException (Option Json) :=
  match u.filter Json.truthy with
  | some url =>
      if startsWith transaction "/" then
        (templateUrl transaction url).map fun text => some (.str text)
      else .ok u
  | none => .ok u

/-- The hook changes the URL only, in what it keeps. -/
lemma scrubUrl_cases (transaction : String) (request : Dict String Json) :
    (∃ e, scrubUrl transaction request = .error e
        ∧ scrubbedUrl transaction (request.get? "url") = .error e)
      ∨ ∃ r, scrubUrl transaction request = .ok r
        ∧ scrubbedUrl transaction (request.get? "url") = .ok (r.get? "url")
        ∧ ∀ k, k ≠ "url" → r.get? k = request.get? k := by
  rw [scrubUrl, scrubbedUrl]
  cases hurl : (request.get? "url").filter Json.truthy with
  | none => exact .inr ⟨request, rfl, rfl, fun k _ => rfl⟩
  | some url =>
      dsimp only
      split_ifs
      · cases htemplate : templateUrl transaction url with
        | error e => exact .inl ⟨e, rfl, rfl⟩
        | ok text =>
            refine .inr ⟨_, rfl, ?_, fun k hk => ?_⟩
            · rw [Dict.get?_set, if_pos rfl]
              rfl
            · rw [Dict.get?_set, if_neg hk]
      · exact .inr ⟨request, rfl, rfl, fun k _ => rfl⟩

/-- An event with a request, also an empty one. -/
lemma scrubSentryEvent_some (transaction : Option String) (request others : Dict String Json) :
    scrubSentryEvent ⟨transaction, some request, others⟩
      = (scrubUrl (transaction.getD "") request).map fun r =>
        ⟨transaction, some (r.erase ["query_string"]), others⟩ := by
  rw [scrubSentryEvent]
  dsimp only
  split_ifs with hempty
  · rw [List.isEmpty_iff] at hempty
    have hurl : request.get? "url" = none := by rw [Dict.get?, hempty, List.lookup_nil]
    have herase : request.erase ["query_string"] = request := by
      refine Dict.ext ?_
      show request.items.filter _ = request.items
      rw [hempty]
      rfl
    rw [scrubUrl, hurl]
    exact congrArg (fun r => Except.ok (⟨transaction, some r, others⟩ : SentryEvent)) herase.symm
  · rfl

/-- The hook makes two events equal that differ in their URLs only, if it makes their URLs
equal. -/
lemma sameScrub_iff {P : SplitResult → SplitResult → Prop} {event event' : SentryEvent}
    (h : SameExceptUrl P event event') :
    SentryEvent.SameScrub (scrubSentryEvent event) (scrubSentryEvent event')
      ↔ ∃ u, scrubbedUrl (event.transaction.getD "") event.url = .ok u
        ∧ scrubbedUrl (event.transaction.getD "") event'.url = .ok u := by
  obtain ⟨transaction, request, others⟩ := event
  obtain ⟨transaction', request', others'⟩ := event'
  obtain ⟨rfl, rfl, hrequest⟩ := h
  cases hrequest with
  | none => exact iff_of_true ⟨rfl, rfl, .none⟩ ⟨none, rfl, rfl⟩
  | @some r r' hr =>
      obtain ⟨hsame, -⟩ := hr
      rw [scrubSentryEvent_some, scrubSentryEvent_some]
      show _ ↔ ∃ u, scrubbedUrl _ (r.get? "url") = .ok u ∧ scrubbedUrl _ (r'.get? "url") = .ok u
      obtain ⟨e, he, hurl⟩ | ⟨r₁, hr₁, hurl, hkeep⟩ := scrubUrl_cases (transaction.getD "") r
      · rw [he, hurl]
        refine iff_of_false id ?_
        rintro ⟨u, ⟨⟩, -⟩
      obtain ⟨e', he', hurl'⟩ | ⟨r₁', hr₁', hurl', hkeep'⟩ :=
        scrubUrl_cases (transaction.getD "") r'
      · rw [hr₁, he', hurl']
        refine iff_of_false id ?_
        rintro ⟨u, -, ⟨⟩⟩
      rw [hr₁, hr₁', hurl, hurl']
      constructor
      · rintro ⟨-, -, hrel⟩
        cases hrel with
        | some hrel =>
            have hget := hrel "url"
            exact ⟨_, rfl, congrArg Except.ok (by simpa using hget.symm)⟩
      · rintro ⟨u, hget, hget'⟩
        have hget := (Except.ok.inj hget).trans (Except.ok.inj hget').symm
        refine ⟨rfl, rfl, .some fun k => ?_⟩
        rw [Dict.get?_erase, Dict.get?_erase]
        split_ifs with hk
        · rfl
        by_cases hurlKey : k = "url"
        · rw [hurlKey, hget]
        · rw [hkeep k hurlKey, hkeep' k hurlKey]
          exact hsame k hurlKey (by simpa using hk)

/-- A URL that can be split is replaced by the template of the route, if it has any text. -/
lemma scrubbedUrl_str {transaction url : String} {parts : SplitResult}
    (hparts : UrlLibrary.urlsplit url = .ok parts) :
    scrubbedUrl transaction (some (.str url))
      = .ok (if url ≠ "" ∧ startsWith transaction "/" = true then some (.str
          (UrlLibrary.urlunsplit ⟨parts.scheme, parts.netloc, transaction, "", ""⟩))
        else some (.str url)) := by
  by_cases hempty : url = ""
  · rw [hempty, if_neg (by simp)]
    rfl
  · have htruthy : (some (Json.str url)).filter Json.truthy = some (.str url) := by
      rw [Option.filter_some, Json.truthy, if_pos (decide_eq_true hempty)]
    rw [scrubbedUrl, htruthy]
    dsimp only
    split_ifs with hroute hboth hboth
    · rw [templateUrl, hparts]
      rfl
    · exact absurd ⟨hempty, hroute⟩ hboth
    · exact absurd hboth.2 hroute
    · rfl

/-- The hook returns when the URL can be split. -/
lemma scrubbedUrl_of_splits {u : Option Json} (h : Splits u) (transaction : String) :
    ∃ v, scrubbedUrl transaction u = .ok v := by
  cases hurl : u.filter Json.truthy with
  | none => exact ⟨u, by rw [scrubbedUrl, hurl]⟩
  | some url =>
      obtain ⟨hmem, htruthy⟩ := Option.filter_eq_some_iff.mp hurl
      obtain ⟨text, parts, rfl, hparts⟩ := h url hmem htruthy
      rw [hmem]
      exact ⟨_, scrubbedUrl_str hparts⟩

/-- A URL with the path of a route is not empty. -/
lemma urlunsplit_ne_empty (hjoins : JoinsPath) {transaction : String}
    (hroute : startsWith transaction "/" = true) (scheme netloc : String) :
    UrlLibrary.urlunsplit ⟨scheme, netloc, transaction, "", ""⟩ ≠ "" := by
  intro hempty
  have hpath := hjoins ⟨scheme, netloc, transaction, "", ""⟩
  rw [hempty, String.toList_empty, List.infix_nil] at hpath
  rw [startsWith, hpath] at hroute
  cases hroute

/-- **When the URLs become equal.** -/
lemma scrubbedUrl_eq_iff (hjoins : JoinsPath) {P : SplitResult → SplitResult → Prop}
    (hP : ∀ parts parts', P parts parts' → SameSite parts parts') (transaction : String)
    {u u' : Option Json} (h : SameUrl P u u') :
    (∃ v, scrubbedUrl transaction u = .ok v ∧ scrubbedUrl transaction u' = .ok v)
      ↔ u = u' ∨ startsWith transaction "/" = true
        ∧ (∃ url ∈ u, url.truthy = true) ∧ ∃ url ∈ u', url.truthy = true := by
  rcases h with ⟨rfl, hsplits⟩ | ⟨url, url', parts, parts', rfl, rfl, hparts, hparts', hrelated⟩
  · obtain ⟨v, hv⟩ := scrubbedUrl_of_splits hsplits transaction
    exact iff_of_true ⟨v, hv, hv⟩ (.inl rfl)
  by_cases hsame : some (Json.str url) = some (Json.str url')
  · rw [← hsame]
    exact iff_of_true ⟨_, scrubbedUrl_str hparts, scrubbedUrl_str hparts⟩ (.inl rfl)
  obtain ⟨hscheme, hnetloc⟩ := hP parts parts' hrelated
  have htruthy : ∀ url : String, (∃ v ∈ some (Json.str url), v.truthy = true) ↔ url ≠ "" := by
    intro url
    simp [Json.truthy]
  have hboth : ∀ v v' : Option Json, (∃ w, (.ok v : Except PyException _) = .ok w
      ∧ (.ok v' : Except PyException _) = .ok w) ↔ v = v' := by
    intro v v'
    simp [eq_comm]
  rw [scrubbedUrl_str hparts, scrubbedUrl_str hparts', htruthy, htruthy, hboth, ← hscheme,
    ← hnetloc]
  have hne : url ≠ url' := fun heq => hsame (by rw [heq])
  by_cases hroute : startsWith transaction "/" = true
  · have htemplate := urlunsplit_ne_empty hjoins hroute parts.scheme parts.netloc
    simp only [hroute, and_true, true_and]
    by_cases hurl : url = ""
    · have hurl' : url' ≠ "" := fun hurl' => hne (hurl.trans hurl'.symm)
      rw [if_neg (not_not_intro hurl), if_pos hurl']
      refine iff_of_false (fun heq => htemplate ?_) ?_
      · rw [Option.some.injEq, Json.str.injEq] at heq
        rw [← heq, hurl]
      · rintro (heq | hboth)
        · exact hsame heq
        · exact hboth.1 hurl
    · by_cases hurl' : url' = ""
      · rw [if_pos hurl, if_neg (not_not_intro hurl')]
        refine iff_of_false (fun heq => htemplate ?_) ?_
        · rw [Option.some.injEq, Json.str.injEq] at heq
          rw [heq, hurl']
        · rintro (heq | hboth)
          · exact hsame heq
          · exact hboth.2 hurl'
      · rw [if_pos hurl, if_pos hurl']
        exact iff_of_true rfl (.inr ⟨hurl, hurl'⟩)
  · rw [if_neg fun hboth => hroute hboth.2, if_neg fun hboth => hroute hboth.2]
    exact (or_iff_left fun hboth => hroute hboth.1).symm

/-- **What Sentry gets of a query string.**  Two events that differ in their query strings only, in
the URL and beside it, are returned equal exactly if their URLs are the same or there is a route,
for both of the URLs.  With a route, the same holds of two events that differ in the paths of their
URLs. -/
theorem scrub_same_iff (hjoins : JoinsPath) (event event' : SentryEvent) :
    (SameExceptUrl SameExceptQuery event event' →
      (SentryEvent.SameScrub (scrubSentryEvent event) (scrubSentryEvent event')
        ↔ event.url = event'.url ∨ event.HasRoute ∧ event.HasUrl ∧ event'.HasUrl))
      ∧ (SameExceptUrl SameSite event event' → event.HasRoute →
        (SentryEvent.SameScrub (scrubSentryEvent event) (scrubSentryEvent event')
          ↔ event.url = event'.url ∨ event.HasUrl ∧ event'.HasUrl)) := by
  have hmain : ∀ P : SplitResult → SplitResult → Prop,
      (∀ parts parts', P parts parts' → SameSite parts parts') → SameExceptUrl P event event' →
      (SentryEvent.SameScrub (scrubSentryEvent event) (scrubSentryEvent event')
        ↔ event.url = event'.url ∨ event.HasRoute ∧ event.HasUrl ∧ event'.HasUrl) := by
    intro P hP h
    have hurl : SameUrl P event.url event'.url := by
      have hrequest := h.request
      rw [SentryEvent.url, SentryEvent.url]
      generalize event.request = request at hrequest
      generalize event'.request = request' at hrequest
      cases hrequest with
      | none => exact .inl ⟨rfl, nofun⟩
      | some hr => exact hr.2
    rw [sameScrub_iff h]
    exact scrubbedUrl_eq_iff hjoins hP _ hurl
  refine ⟨hmain _ fun parts parts' h => ⟨h.1, h.2.1⟩, fun h hroute => ?_⟩
  rw [hmain _ (fun parts parts' h => h) h]
  exact or_congr_right (and_iff_right hroute)

end Hook

/-! ## A link with a secret -/

/-- A part with its marks, if it is there. -/
def marked (before part after : String) : String :=
  if part = "" then "" else before ++ part ++ after

/-- The five parts, by the regular expression of RFC 3986. -/
@[reducible] def referenceLibrary : UrlLibrary where
  urlsplit url :=
    let parts := Uri.Reference.split url.toList
    .ok ⟨.ofList (parts.scheme.getD []), .ofList (parts.authority.getD []), .ofList parts.path,
      .ofList (parts.query.getD []), .ofList (parts.fragment.getD [])⟩
  urlunsplit parts :=
    marked "" parts.scheme ":" ++ marked "//" parts.netloc "" ++ parts.path
      ++ (marked "?" parts.query "" ++ marked "#" parts.fragment "")

/-- An error while a link with a token is opened. -/
def linkEvent (transaction : Option String) (url : String) : SentryEvent where
  transaction := transaction
  request := some (.ofPairs [("url", .str url), ("method", .str "GET")])
  others := .empty

section Link

attribute [local instance] referenceLibrary

lemma joinsPath_reference : JoinsPath := by
  intro parts
  show _ <:+: (_ ++ _ ++ parts.path ++ (_ ++ _) : String).toList
  rw [String.toList_append, String.toList_append]
  exact ⟨_, _, rfl⟩

/-- Two tokens. -/
lemma sameExceptQuery_link (transaction : Option String) :
    SameExceptUrl SameExceptQuery (linkEvent transaction "https://api.gr/references?token=a")
      (linkEvent transaction "https://api.gr/references?token=b") where
  transaction := rfl
  others := rfl
  request := .some ⟨fun k hurl _ => by simp [Dict.ofPairs, hurl],
    .inr ⟨_, _, _, _, rfl, rfl, rfl, rfl, by decide, by decide, by decide⟩⟩

/-- With a route, the token is gone. -/
theorem scrub_same_iff_route : SentryEvent.SameScrub
    (scrubSentryEvent (linkEvent (some "/references") "https://api.gr/references?token=a"))
    (scrubSentryEvent (linkEvent (some "/references") "https://api.gr/references?token=b")) :=
  ((scrub_same_iff joinsPath_reference _ _).1 (sameExceptQuery_link _)).mpr
    (.inr ⟨(by decide : startsWith "/references" "/" = true), ⟨_, rfl, by decide⟩,
      ⟨_, rfl, by decide⟩⟩)

/-- Without a route, the token stays in the URL. -/
theorem scrub_keeps_token :
    SameExceptUrl SameExceptQuery (linkEvent none "https://api.gr/references?token=a")
        (linkEvent none "https://api.gr/references?token=b")
      ∧ ¬ SentryEvent.SameScrub
        (scrubSentryEvent (linkEvent none "https://api.gr/references?token=a"))
        (scrubSentryEvent (linkEvent none "https://api.gr/references?token=b")) := by
  refine ⟨sameExceptQuery_link none, fun h => ?_⟩
  obtain ⟨u, hu, hu'⟩ := (sameScrub_iff (sameExceptQuery_link none)).mp h
  have hurl : (some (Json.str "https://api.gr/references?token=a"))
      = some (Json.str "https://api.gr/references?token=b") :=
    (Except.ok.inj hu).trans (Except.ok.inj hu').symm
  rw [Option.some.injEq, Json.str.injEq] at hurl
  revert hurl
  decide

end Link

end Atsig
