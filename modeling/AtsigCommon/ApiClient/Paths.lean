import AtsigCommon.ApiClient.Calls

/-!
# Where an id can lead

The path that a call with an id asks for, for every id.  Percent-encoding takes care of every
character that ends a segment or a path; it keeps the dots, and it can not make the empty segment
longer.

* `segments_target` — the segments of the path, with the dots resolved.
* `id_stays_iff` — the path is the one of the template, with one segment for the id, and no other
  endpoint has it, if and only if the id is not empty, no dot segment, and not the name of an
  endpoint in this place.
* `resolve_injective` — different ids, different paths.
-/

namespace Atsig

open Uri

/-! ## Segments of ids -/

/-- The segment of an id. -/
def idSegment (id : String) : List Char := escape isUnreserved id.toList

lemma idSegment_injective : Function.Injective idSegment := by
  intro v w h
  have := escape_injective (show isUnreserved '%' = false by decide) h
  exact String.toList_injective this

lemma idSegment_eq_iff (v : String) {w : String} {s : List Char} (hw : idSegment w = s) :
    idSegment v = s ↔ v = w := by
  rw [← hw]
  exact idSegment_injective.eq_iff

@[simp] lemma idSegment_eq_nil (v : String) : idSegment v = [] ↔ v = "" :=
  idSegment_eq_iff v rfl

@[simp] lemma idSegment_eq_dot (v : String) : idSegment v = ['.'] ↔ v = "." :=
  idSegment_eq_iff v (by decide)

@[simp] lemma idSegment_eq_dots (v : String) : idSegment v = ['.', '.'] ↔ v = ".." :=
  idSegment_eq_iff v (by decide)

/-- The percent-encoded id reads as the id. -/
lemma decode_idSegment (v : String) : decodeText (unescape (idSegment v)) = some v := by
  have h := unescape_escape (show isUnreserved '%' = false by decide) [] v.toList
  simp only [List.append_nil, unescape] at h
  rw [idSegment, h, decodeText_utf8]

/-- No character of the segment ends it. -/
lemma idSegment_free (v : String) : Free ['/', '?', '#'] (idSegment v) := by
  have hout : ∀ p : Char → Bool, ['/', '?', '#'].all (fun d => !p d) = true → ∀ c, p c →
      decide (c ∉ ['/', '?', '#']) = true := by
    intro p hp c hc
    rw [decide_eq_true_eq]
    intro hmem
    have hstop := List.all_eq_true.mp hp c hmem
    rw [hc] at hstop
    cases hstop
  have hsegment : ∀ c ∈ idSegment v, decide (c ∉ ['/', '?', '#']) = true :=
    escape_forall (hout isUnreserved (by decide)) (by decide) (hout Char.isAlphanum (by decide)) _
  intro c hc
  simpa using hsegment c hc

/-! ## Templates -/

/-- The segments before the id. -/
def IdCall.before : IdCall → List String
  | .getDepartment => ["departments"]
  | .getSecretary => ["secretaries"]
  | .getAgent => ["agents"]
  | .getApplicant | .getApplicantProfile | .getApplicantMediaUrl _ => ["applicants"]

/-- The segments after it. -/
def IdCall.after : IdCall → List String
  | .getApplicantProfile => ["complete"]
  | .getApplicantMediaUrl _ => ["media-url"]
  | _ => []

/-- The template with a segment for the id. -/
def IdCall.fill (e : IdCall) (segment : List Char) : List (List Char) :=
  e.before.map String.toList ++ [segment] ++ e.after.map String.toList

lemma before_eq (e : IdCall) : ∃ name, e.before = [name] ∧ name ∈ ["departments", "secretaries",
    "applicants", "agents"] := by
  cases e <;> exact ⟨_, rfl, by decide⟩

lemma fill_free {e : IdCall} {segment : List Char} (h : Free ['/', '?', '#'] segment) :
    ∀ s ∈ e.fill segment, Free ['/', '?', '#'] s := by
  have hnames : ∀ s ∈ (["departments", "secretaries", "applicants", "agents", "complete",
      "media-url"] : List String).map String.toList, Free ['/', '?', '#'] s := by
    decide
  intro s hs
  simp only [IdCall.fill, List.mem_append, List.mem_singleton] at hs
  rcases hs with (hs | rfl) | hs
  · refine hnames s ?_
    cases e <;> simp_all [IdCall.before]
  · exact h
  · refine hnames s ?_
    cases e <;> simp_all [IdCall.after]

/-- The endpoint of a call is its template. -/
lemma endpoint_eq (e : IdCall) (v : String) :
    (e.call v).endpoint.toList = '/' :: ['/'].intercalate (e.fill (idSegment v)) := by
  cases e <;> simp [IdCall.call, getDepartment, getSecretary, getApplicant, getAgent,
    getApplicantProfile, getApplicantMediaUrl, get, IdCall.fill, IdCall.before, IdCall.after,
    pathSegment, idSegment, List.intercalate]

/-! ## Base URLs -/

/-- The URL of a service: a scheme, an authority and perhaps a path. -/
structure BaseUrl where
  scheme : List Char
  authority : List Char
  path : List Char
  scheme_ne : scheme ≠ []
  scheme_free : Free [':', '/', '?', '#'] scheme
  authority_ne : authority ≠ []
  authority_free : Free ['/', '?', '#'] authority
  path_free : Free ['?', '#'] path
  path_start : path = [] ∨ path.head? = some '/'

/-- The text of the URL. -/
def BaseUrl.text (base : BaseUrl) : String :=
  .ofList (base.scheme ++ [':', '/', '/'] ++ base.authority ++ base.path)

/-- The path without the slashes at its end. -/
def BaseUrl.stem (base : BaseUrl) : List Char := base.path.rdropWhile (· = '/')

/-- The segments of the path of the service. -/
def BaseUrl.root (base : BaseUrl) : List (List Char) := (removeDots (base.stem.splitOn '/')).tail

lemma rdropWhile_append {α : Type} {p : α → Bool} {l m : List α} (h : l.rdropWhile p = l) :
    (l ++ m).rdropWhile p = l ++ m.rdropWhile p := by
  have hl : l.reverse.dropWhile p = l.reverse := by
    rw [← List.reverse_inj, List.reverse_reverse]
    exact h
  simp only [List.rdropWhile, List.reverse_append, List.dropWhile_append, hl]
  split
  · rename_i hempty
    rw [List.isEmpty_iff.mp hempty]
    simp
  · simp

section Base

variable (base : BaseUrl)

lemma stem_subset {c : Char} (h : c ∈ base.stem) : c ∈ base.path :=
  (List.rdropWhile_prefix _ _).subset h

lemma stem_start : base.stem = [] ∨ base.stem.head? = some '/' := by
  obtain ⟨rest, hrest⟩ := List.rdropWhile_prefix (· = '/') base.path
  cases hstem : base.stem with
  | nil => exact Or.inl rfl
  | cons c stem =>
      right
      rw [BaseUrl.stem] at hstem
      rw [hstem] at hrest
      rcases base.path_start with hnil | hhead
      · simp [hnil] at hrest
      · simpa [← hrest] using hhead

/-- The stored URL. -/
lemma init_baseUrl : (BaseAPI.init base.text).baseUrl
    = .ofList (base.scheme ++ [':', '/', '/'] ++ base.authority ++ base.stem) := by
  have hlast : ∀ h : base.authority ≠ [], ¬ decide (base.authority.getLast h = '/') := by
    intro h
    have := base.authority_free _ (List.getLast_mem h)
    simp only [List.mem_cons, not_or] at this
    simpa using this.1
  have hkeep : (base.scheme ++ [':', '/', '/'] ++ base.authority).rdropWhile (· = '/')
      = base.scheme ++ [':', '/', '/'] ++ base.authority := by
    rw [List.rdropWhile_eq_self_iff]
    intro hl
    rw [List.getLast_append_of_ne_nil hl base.authority_ne]
    exact hlast base.authority_ne
  simp only [BaseAPI.init, rstripSlash, BaseUrl.text, String.toList_ofList]
  rw [rdropWhile_append hkeep, BaseUrl.stem]

/-- The path of the service begins with a slash, whatever its dots are. -/
lemma removeDots_stem : removeDots (base.stem.splitOn '/') = [] :: base.root := by
  obtain ⟨rest, hrest⟩ : ∃ rest, base.stem.splitOn '/' = [] :: rest := by
    rcases stem_start base with hnil | hhead
    · exact ⟨[], by rw [hnil, List.splitOn_nil]⟩
    · obtain ⟨stem, hstem⟩ := List.head?_eq_some_iff.mp hhead
      exact ⟨stem.splitOn '/', by
        rw [hstem]
        exact List.splitOn_append_cons_self [] stem⟩
  obtain ⟨root, hroot⟩ := foldl_dotStep_head rest []
  have hremove : removeDots (base.stem.splitOn '/') = [] :: root := by
    rw [hrest, removeDots, List.foldl_cons, dotStep_plain (by simp [Plain]) []]
    exact hroot
  rw [BaseUrl.root, hremove, List.tail_cons]

end Base

/-! ## Paths -/

/-- The template with its dots resolved; a segment `..` takes the name before it away. -/
def IdCall.resolve (e : IdCall) (segment : List Char) : List (List Char) :=
  if segment = ['.'] then e.before.map String.toList ++ e.after.map String.toList
  else if segment = ['.', '.'] then e.after.map String.toList
  else e.fill segment

/-- The endpoint without its slash. -/
lemma lstripSlash_endpoint (e : IdCall) (v : String) :
    (lstripSlash (e.call v).endpoint).toList = ['/'].intercalate (e.fill (idSegment v)) := by
  rw [lstripSlash, String.toList_ofList, endpoint_eq]
  cases e <;> simp [IdCall.fill, IdCall.before, IdCall.after, List.intercalate]

lemma splitOn_fill (e : IdCall) (v : String) :
    (['/'].intercalate (e.fill (idSegment v))).splitOn '/' = e.fill (idSegment v) := by
  refine List.splitOn_intercalate '/' (fun s hs hslash => ?_) (by simp [IdCall.fill])
  exact fill_free (idSegment_free v) s hs '/' hslash (by simp)

/-- The names of a template are plain. -/
lemma plain_names (e : IdCall) : (∀ s ∈ e.before.map String.toList, Plain s)
    ∧ ∀ s ∈ e.after.map String.toList, Plain s := by
  unfold Plain
  cases e <;> simp [IdCall.before, IdCall.after]

lemma foldl_fill (e : IdCall) (root : List (List Char)) (segment : List Char) :
    (e.fill segment).foldl dotStep ([] :: root) = [] :: root ++ e.resolve segment := by
  obtain ⟨hbefore, hafter⟩ := plain_names e
  have hlast : ([] :: root ++ e.before.map String.toList).dropLast = [] :: root := by
    obtain ⟨name, hname, -⟩ := before_eq e
    rw [hname, List.map_singleton, List.dropLast_concat]
  have hlong : ¬ ([] :: root ++ e.before.map String.toList = []
      ∨ [] :: root ++ e.before.map String.toList = [[]]) := by
    obtain ⟨name, hname, -⟩ := before_eq e
    simp [hname]
  rw [IdCall.fill, List.foldl_append, List.foldl_append, foldl_dotStep_plain _ _ hbefore,
    foldl_dotStep_plain _ _ hafter, List.foldl_cons, List.foldl_nil, dotStep, IdCall.resolve]
  split
  · simp
  · split
    · rw [hlast]
    · simp [IdCall.fill]

section Target

variable (base : BaseUrl) (e : IdCall) (v : String)

/-- The parts of the request. -/
lemma target_eq : (BaseAPI.init base.text).target (e.call v)
    = ⟨some base.scheme, some base.authority,
        normalizePath (base.stem ++ '/' :: ['/'].intercalate (e.fill (idSegment v))), none, none⟩ := by
  have hpath : Free ['?', '#'] (base.stem ++ '/' :: ['/'].intercalate (e.fill (idSegment v))) := by
    intro c hc
    rcases List.mem_append.mp hc with hc | hc
    · exact base.path_free c (stem_subset base hc)
    · rcases List.mem_cons.mp hc with rfl | hc
      · simp
      · rcases mem_intercalate hc with rfl | ⟨s, hs, hc⟩
        · simp
        · have := fill_free (idSegment_free v) s hs c hc
          simp only [List.mem_cons, not_or] at this ⊢
          exact ⟨this.2.1, this.2.2⟩
  have hstart : base.stem ++ '/' :: ['/'].intercalate (e.fill (idSegment v)) = []
      ∨ (base.stem ++ '/' :: ['/'].intercalate (e.fill (idSegment v))).head? = some '/' := by
    right
    rcases stem_start base with hnil | hhead
    · simp [hnil]
    · simp [List.head?_append, hhead]
  have hsplit := Reference.split_absolute base.scheme_ne base.scheme_free base.authority_free
    hpath hstart
  have hurl : ((BaseAPI.init base.text).url (e.call v).endpoint).toList
      = base.scheme ++ [':', '/', '/'] ++ base.authority
        ++ (base.stem ++ '/' :: ['/'].intercalate (e.fill (idSegment v))) := by
    rw [BaseAPI.url, init_baseUrl, String.toList_append, String.toList_append,
      lstripSlash_endpoint, String.toList_ofList]
    simp
  simp only [BaseAPI.target, hurl, hsplit]

/-- **The segments of the path**: those of the service, and the template with its dots
resolved. -/
theorem segments_target : segments ((BaseAPI.init base.text).target (e.call v)).path
    = base.root ++ e.resolve (idSegment v) := by
  rw [target_eq]
  refine segments_normalizePath ?_
  rw [List.splitOn_append_cons_self, splitOn_fill, removeDots, List.foldl_append, ← removeDots,
    removeDots_stem, foldl_fill, List.cons_append]

end Target

/-! ## Endpoints -/

/-- An endpoint of a service: with one path, or with one for each id. -/
inductive Route
  | fixed (call : Call)
  | withId (e : IdCall)

/-- The paths of an endpoint, as segments. -/
def Route.Matches : Route → List (List Char) → Prop
  | .fixed call, path => path = segments call.endpoint.toList
  | .withId e, path => ∃ segment, segment ≠ [] ∧ path = e.fill segment

/-- The endpoints that `UniAPI` calls. -/
def uniRoutes : List Route :=
  [.withId .getDepartment, .fixed (getDepartmentsByIds []),
    .fixed (getDepartmentsByUniversityIds []), .fixed (getDepartmentsBySchoolId ""),
    .fixed getUniversities]

/-- The endpoints that `UsersAPI` calls. -/
def usersRoutes : List Route :=
  [.withId .getSecretary, .fixed (getSecretariesByUuids []), .fixed (getUsersByUuids []),
    .fixed (getApplicantProfilesByUuids []), .fixed saveUser, .withId .getApplicant,
    .withId .getAgent, .withId .getApplicantProfile, .withId (.getApplicantMediaUrl "")]

/-- The endpoint is the one of the call. -/
def Route.isOf (e : IdCall) : Route → Bool
  | .fixed _ => false
  | .withId e' => decide (e'.before = e.before ∧ e'.after = e.after)

/-- The other endpoints of the same service. -/
def IdCall.others (e : IdCall) : List Route :=
  (match e with
    | .getDepartment => uniRoutes
    | _ => usersRoutes).filter fun r => !r.isOf e

/-- The names that another endpoint has in the place of the id. -/
def IdCall.reserved : IdCall → List String
  | .getDepartment => ["by_ids", "by_uni_ids"]
  | .getSecretary | .getApplicant => ["by_ids"]
  | _ => []

section Results

variable (base : BaseUrl) (e : IdCall) (v : String)

/-- The path that the request asks for. -/
def requestPath : List Char := ((BaseAPI.init base.text).target (e.call v)).path

/-- **What is promised of an id**: the path has the segments of the template, with one for the id
which reads as the id; the URL has no query and no fragment. -/
structure Placed : Prop where
  segments : ∃ segment, segment ≠ [] ∧ decodeText (unescape segment) = some v
    ∧ segments (requestPath base e v) = base.root ++ e.fill segment
  query : ((BaseAPI.init base.text).target (e.call v)).query = none
  fragment : ((BaseAPI.init base.text).target (e.call v)).fragment = none

/-- The request reaches an endpoint of the service. -/
def Reaches (r : Route) : Prop :=
  ∃ path, segments (requestPath base e v) = base.root ++ path ∧ r.Matches path

lemma fill_injective : Function.Injective e.fill := by
  intro s t h
  simp only [IdCall.fill] at h
  have := List.append_cancel_right h
  simpa using List.append_cancel_left this

lemma resolve_eq {segment : List Char} (h : Plain segment) :
    e.resolve segment = e.fill segment := by
  rw [IdCall.resolve, if_neg h.1, if_neg h.2]

/-- The ids that stay in their place. -/
theorem placed_iff : Placed base e v ↔ v ∉ ["", ".", ".."] := by
  have hsegments := segments_target base e v
  constructor
  · rintro ⟨⟨segment, hne, hread, hpath⟩, -, -⟩ hmem
    rw [requestPath, hsegments] at hpath
    have hfill := congrArg List.length (List.append_cancel_left hpath)
    obtain ⟨name, hname, -⟩ := before_eq e
    simp only [List.mem_cons, List.not_mem_nil, or_false] at hmem
    rcases hmem with rfl | rfl | rfl
    · have hplain : Plain (idSegment "") := by simp [Plain]
      rw [resolve_eq e hplain] at hpath
      have := fill_injective e (List.append_cancel_left hpath)
      exact hne (this.symm.trans ((idSegment_eq_nil "").mpr rfl))
    · rw [IdCall.resolve, if_pos ((idSegment_eq_dot ".").mpr rfl)] at hfill
      simp [IdCall.fill, hname] at hfill
    · rw [IdCall.resolve, if_neg (by simp), if_pos ((idSegment_eq_dots "..").mpr rfl)] at hfill
      simp only [IdCall.fill, hname, List.map_cons, List.map_nil, List.length_append,
        List.length_map, List.length_cons, List.length_nil] at hfill
      omega
  · intro hmem
    simp only [List.mem_cons, List.not_mem_nil, or_false, not_or] at hmem
    have hplain : Plain (idSegment v) := by simp [Plain, hmem]
    refine ⟨⟨idSegment v, by simp [hmem], decode_idSegment v, ?_⟩, ?_, ?_⟩
    · rw [requestPath, hsegments, resolve_eq e hplain]
    · rw [target_eq]
    · rw [target_eq]

/-- The endpoints that an id in its place can reach. -/
lemma reaches_iff (h : Plain (idSegment v)) (r : Route) :
    Reaches base e v r ↔ r.Matches (e.fill (idSegment v)) := by
  rw [Reaches, requestPath, segments_target, resolve_eq e h]
  constructor
  · rintro ⟨path, hpath, hr⟩
    rw [List.append_cancel_left hpath]
    exact hr
  · intro hr
    exact ⟨_, rfl, hr⟩

/-- The paths of the endpoints without an id. -/
lemma segments_fixed :
    segments (getDepartmentsByIds []).endpoint.toList = ["departments".toList, "by_ids".toList]
    ∧ segments (getDepartmentsByUniversityIds []).endpoint.toList
      = ["departments".toList, "by_uni_ids".toList]
    ∧ segments (getDepartmentsBySchoolId "").endpoint.toList = ["departments".toList]
    ∧ segments getUniversities.endpoint.toList = ["universities".toList]
    ∧ segments (getSecretariesByUuids []).endpoint.toList
      = ["secretaries".toList, "by_ids".toList]
    ∧ segments (getUsersByUuids []).endpoint.toList = ["applicants".toList, "by_ids".toList]
    ∧ segments (getApplicantProfilesByUuids []).endpoint.toList
      = ["applicants".toList, "by_ids".toList]
    ∧ segments saveUser.endpoint.toList = ["users".toList] :=
  ⟨rfl, rfl, rfl, rfl, rfl, rfl, rfl, rfl⟩

/-- Another endpoint has the path only by a name in the place of the id. -/
lemma others_iff : (∀ r ∈ e.others, ¬ r.Matches (e.fill (idSegment v))) ↔ v ∉ e.reserved := by
  have hids : idSegment v = ['b', 'y', '_', 'i', 'd', 's'] ↔ v = "by_ids" :=
    idSegment_eq_iff v (by decide)
  have huni : idSegment v = ['b', 'y', '_', 'u', 'n', 'i', '_', 'i', 'd', 's']
      ↔ v = "by_uni_ids" := idSegment_eq_iff v (by decide)
  obtain ⟨h1, h2, h3, h4, h5, h6, h7, h8⟩ := segments_fixed
  cases e with
  | getDepartment =>
      simp [IdCall.others, uniRoutes, Route.isOf, IdCall.before, IdCall.after, IdCall.reserved,
        Route.Matches, IdCall.fill]
      simp [h1, h2, h3, h4, hids, huni]
  | getSecretary | getApplicant | getAgent | getApplicantProfile | getApplicantMediaUrl =>
      simp [IdCall.others, usersRoutes, Route.isOf, IdCall.before, IdCall.after, IdCall.reserved,
        Route.Matches, IdCall.fill]
      simp [h5, h6, h7, h8, hids]

lemma resolve_injective : Function.Injective e.resolve := by
  obtain ⟨name, hname, -⟩ := before_eq e
  have hdot : (e.resolve ['.']).length = e.after.length + 1 := by
    simp [IdCall.resolve, hname]
  have hdots : (e.resolve ['.', '.']).length = e.after.length := by simp [IdCall.resolve]
  have hlong : ∀ s, Plain s → (e.resolve s).length = e.after.length + 2 := by
    intro s h
    simp only [resolve_eq e h, IdCall.fill, hname, List.map_cons, List.map_nil, List.length_append,
      List.length_map, List.length_cons, List.length_nil]
    omega
  have hkinds : ∀ s : List Char, s = ['.'] ∨ s = ['.', '.'] ∨ Plain s := by
    intro s
    rw [Plain]
    tauto
  intro s t h
  have hlength := congrArg List.length h
  rcases hkinds s with rfl | rfl | hs <;> rcases hkinds t with rfl | rfl | ht
  · rfl
  · omega
  · rw [hlong t ht] at hlength
    omega
  · omega
  · rfl
  · rw [hlong t ht] at hlength
    omega
  · rw [hlong s hs] at hlength
    omega
  · rw [hlong s hs] at hlength
    omega
  · rw [resolve_eq e hs, resolve_eq e ht] at h
    exact fill_injective e h

/-- **Where an id can lead.**  The path is the one of the template, with the id as one segment, and
it is no path of another endpoint, if and only if the id is not empty, is neither of the dot
segments, and is not the name that another endpoint has in this place.  Whatever the ids are,
different ones have different paths. -/
theorem id_stays_iff : ((Placed base e v ∧ ∀ r ∈ e.others, ¬ Reaches base e v r)
      ↔ v ∉ ["", ".", ".."] ∧ v ∉ e.reserved)
    ∧ ∀ w, requestPath base e w = requestPath base e v → w = v := by
  constructor
  · rw [placed_iff]
    refine and_congr_right fun hmem => ?_
    have hplain : Plain (idSegment v) := by
      simp only [List.mem_cons, List.not_mem_nil, or_false, not_or] at hmem
      simp [Plain, hmem]
    simp only [reaches_iff base e v hplain]
    exact others_iff e v
  · intro w h
    have hsegments := congrArg segments h
    rw [requestPath, requestPath, segments_target, segments_target] at hsegments
    exact idSegment_injective (resolve_injective e (List.append_cancel_left hsegments))

end Results

/-- The URL of a service on its own host. -/
def profiles : BaseUrl where
  scheme := "http".toList
  authority := "profiles".toList
  path := []
  scheme_ne := by decide
  scheme_free := by decide
  authority_ne := by decide
  authority_free := by decide
  path_free := by simp [Free]
  path_start := Or.inl rfl

/-- **An id that reaches another endpoint**: the profile of `.` is the applicant `complete`, and
the applicant `by_ids` is the list of applicants. -/
theorem dot_reaches : Reaches profiles .getApplicantProfile "." (.withId .getApplicant)
    ∧ Reaches profiles .getApplicant "by_ids" (.fixed (getUsersByUuids [])) := by
  constructor
  · refine ⟨["applicants".toList, "complete".toList], ?_, "complete".toList, by decide, rfl⟩
    rw [requestPath, segments_target]
    rfl
  · refine ⟨["applicants".toList, "by_ids".toList], ?_, rfl⟩
    rw [requestPath, segments_target]
    rfl

end Atsig
