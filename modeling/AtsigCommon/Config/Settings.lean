import AtsigCommon.ApiClient.Calls
import AtsigCommon.Python.Text
import AtsigCommon.Uri.Credentials

/-!
# The URLs of the settings

`BaseAtsigSettings` makes URLs of its credentials: of the database for SQLAlchemy and for Alembic,
and of Redis.  Each is read again by somebody else.

* `urlUser_eq`, `urlPassword_eq` — the replacements of `_url_user` and `_url_password` amount to a
  percent-encoding.
* `credentials_survive` — SQLAlchemy reads the credentials that were put in, and Alembic reads the
  URL of SQLAlchemy.
* `redis_password_iff` — the password of Redis is read as it was put in, if and only if it has no
  slash.
-/

namespace Atsig

open Python Uri

/-! ## The settings -/

/-- `_url_user` -/
def urlUser (value : String) : String :=
  [('%', "%25"), ('@', "%40"), (':', "%3A"), ('/', "%2F")].foldl
    (fun value p => replace value p.1 p.2) value

/-- `_url_password` -/
def urlPassword (value : String) : String := replace (replace value '%' "%25") '@' "%40"

/-- A character that `urllib.parse.quote` keeps when it is not told otherwise. -/
def isSafe (c : Char) : Bool := isUnreserved c || c = '/'

/-- `quote(value)` -/
def quote (value : String) : String := .ofList (escape isSafe value.toList)

/-- What the URLs are made of. -/
structure Settings where
  postgresUser : String
  postgresPassword : String
  postgresServer : String
  postgresPort : ℤ := 5432
  postgresDb : String
  redisServer : Option String := none
  redisPort : ℤ := 6379
  redisPassword : Option String := none

/-- `database_url` -/
def Settings.databaseUrl (settings : Settings) : String :=
  "postgresql+asyncpg://" ++ urlUser settings.postgresUser
    ++ ":" ++ urlPassword settings.postgresPassword
    ++ "@" ++ settings.postgresServer ++ ":" ++ toString settings.postgresPort
    ++ "/" ++ settings.postgresDb

/-- `alembic_database_url` -/
def Settings.alembicDatabaseUrl (settings : Settings) : String :=
  replace settings.databaseUrl '%' "%%"

/-- `redis_url` -/
def Settings.redisUrl (settings : Settings) : String :=
  let server := settings.redisServer.getD "None"
  match textOr settings.redisPassword none with
  | some password =>
      "redis://:" ++ quote password ++ "@" ++ server ++ ":" ++ toString settings.redisPort ++ "/0"
  | none => "redis://" ++ server ++ ":" ++ toString settings.redisPort ++ "/0"

/-! ## Escaping by replacement -/

/-- Kept by `_url_user`. -/
def isUserChar (c : Char) : Bool := c ∉ ['%', '@', ':', '/']

/-- Kept by `_url_password`. -/
def isPasswordChar (c : Char) : Bool := c ∉ ['%', '@']

lemma escapeChar_user (c : Char) :
    ((((replaceChar '%' "%25".toList c).flatMap (replaceChar '@' "%40".toList)).flatMap
        (replaceChar ':' "%3A".toList)).flatMap (replaceChar '/' "%2F".toList))
      = escapeChar isUserChar c := by
  by_cases hc : c ∈ ['%', '@', ':', '/']
  · simp only [List.mem_cons, List.not_mem_nil, or_false] at hc
    rcases hc with rfl | rfl | rfl | rfl <;> decide
  · have hkeep : isUserChar c = true := decide_eq_true hc
    simp only [List.mem_cons, List.not_mem_nil, or_false, not_or] at hc
    simp [replaceChar, escapeChar, hkeep, hc]

lemma escapeChar_password (c : Char) :
    (replaceChar '%' "%25".toList c).flatMap (replaceChar '@' "%40".toList)
      = escapeChar isPasswordChar c := by
  by_cases hc : c ∈ ['%', '@']
  · simp only [List.mem_cons, List.not_mem_nil, or_false] at hc
    rcases hc with rfl | rfl <;> decide
  · have hkeep : isPasswordChar c = true := decide_eq_true hc
    simp only [List.mem_cons, List.not_mem_nil, or_false, not_or] at hc
    simp [replaceChar, escapeChar, hkeep, hc]

/-- **The replacements in a row are one percent-encoding**: the percent sign comes first, so nothing
is encoded twice. -/
lemma urlUser_eq (value : String) : (urlUser value).toList = escape isUserChar value.toList := by
  simp only [urlUser, List.foldl_cons, List.foldl_nil, toList_replace, List.flatMap_assoc]
  refine List.flatMap_congr fun c _ => ?_
  simp only [← escapeChar_user, List.flatMap_assoc]

lemma urlPassword_eq (value : String) :
    (urlPassword value).toList = escape isPasswordChar value.toList := by
  simp only [urlPassword, toList_replace, List.flatMap_assoc]
  exact List.flatMap_congr fun c _ => escapeChar_password c

/-- The characters of a number end no part of a URL. -/
lemma port_free {stops : List Char} (hstops : stops.all (fun d => !(d.isDigit || d == '-')) = true)
    (n : ℤ) : Free stops (toString n).toList := by
  refine free_of_forall (p := fun d => d.isDigit || d == '-') (fun c hc => ?_) hstops
  rcases mem_toString_int hc with hdigit | rfl
  · rw [hdigit, Bool.true_or]
  · rfl

lemma port_ne_nil (n : ℤ) : (toString n).toList ≠ [] := by
  cases n with
  | ofNat n =>
      rw [toList_ofNat]
      exact Nat.toDigits_ne_nil
  | negSucc n =>
      rw [toList_negSucc]
      exact List.cons_ne_nil _ _

/-! ## The database -/

/-- The characters of the URL of a database. -/
lemma databaseUrl_toList (settings : Settings) :
    settings.databaseUrl.toList = "postgresql+asyncpg".toList ++ ':' :: '/' :: '/' ::
      (escape isUserChar settings.postgresUser.toList ++ ':' ::
        (escape isPasswordChar settings.postgresPassword.toList ++ '@' ::
          (settings.postgresServer.toList ++ ':' ::
            ((toString settings.postgresPort).toList ++ '/' :: settings.postgresDb.toList)))) := by
  have hscheme : "postgresql+asyncpg://".toList = "postgresql+asyncpg".toList ++ [':', '/', '/'] :=
    rfl
  have hcolon : ":".toList = [':'] := rfl
  have hat : "@".toList = ['@'] := rfl
  have hslash : "/".toList = ['/'] := rfl
  unfold Settings.databaseUrl
  simp only [String.toList_append, urlUser_eq, urlPassword_eq, hscheme, hcolon, hat, hslash,
    List.append_assoc, List.cons_append, List.nil_append]

/-- What SQLAlchemy reads in it. -/
lemma parse_databaseUrl (settings : Settings)
    (hserver : Free ['/', ':', '?', '['] settings.postgresServer.toList)
    (hdb : Free ['?'] settings.postgresDb.toList) :
    DatabaseUrl.parse settings.databaseUrl.toList = some {
      drivername := "postgresql+asyncpg".toList
      username := some settings.postgresUser
      password := some settings.postgresPassword
      host := nonempty settings.postgresServer.toList
      port := some settings.postgresPort
      database := some settings.postgresDb.toList
      query := none } := by
  have huser : Free [':', '/'] (escape isUserChar settings.postgresUser.toList) := by
    intro c hc hmem
    simp only [List.mem_cons, List.not_mem_nil, or_false] at hmem
    rcases hmem with rfl | rfl
    · exact notMem_escape (by decide) (by decide) (by decide) _ hc
    · exact notMem_escape (by decide) (by decide) (by decide) _ hc
  have hpassword : '@' ∉ escape isPasswordChar settings.postgresPassword.toList :=
    notMem_escape (by decide) (by decide) (by decide) _
  have hport : Free ['/', '?'] (toString settings.postgresPort).toList := port_free (by decide) _
  have hparse := @DatabaseUrl.parse_credentials "postgresql+asyncpg".toList _ _ _ _ _ (by decide)
    (List.all_eq_true.mp (by decide)) huser hpassword hserver hport hdb
  have huserRead := unquote_escape (show isUserChar '%' = false by decide) settings.postgresUser
  have hpasswordRead := unquote_escape (show isPasswordChar '%' = false by decide)
    settings.postgresPassword
  rw [databaseUrl_toList, hparse, huserRead, hpasswordRead, String.ofList_toList,
    parseInt_toString]
  rfl

/-- **Credentials survive.**  SQLAlchemy reads the user, the password, the host, the port and the
database that were put in; Alembic reads the URL that SQLAlchemy would; and credentials that need
no escaping are written as they are. -/
theorem credentials_survive (settings : Settings)
    (hserver : Free ['/', ':', '?', '['] settings.postgresServer.toList)
    (hdb : Free ['?'] settings.postgresDb.toList)
    (option : List Char → Option (List Char)) :
    DatabaseUrl.parse settings.databaseUrl.toList = some {
        drivername := "postgresql+asyncpg".toList
        username := some settings.postgresUser
        password := some settings.postgresPassword
        host := nonempty settings.postgresServer.toList
        port := some settings.postgresPort
        database := some settings.postgresDb.toList
        query := none }
      ∧ interpolate option settings.alembicDatabaseUrl.toList = some settings.databaseUrl.toList
      ∧ (Free ['%', '@', ':', '/'] settings.postgresUser.toList →
          urlUser settings.postgresUser = settings.postgresUser)
      ∧ (Free ['%', '@'] settings.postgresPassword.toList →
          urlPassword settings.postgresPassword = settings.postgresPassword) := by
  refine ⟨parse_databaseUrl settings hserver hdb, ?_, fun huser => ?_, fun hpassword => ?_⟩
  · rw [Settings.alembicDatabaseUrl, toList_replace]
    exact interpolate_double _
  · rw [← String.toList_inj, urlUser_eq]
    exact escape_of_kept fun c hc => decide_eq_true (huser c hc)
  · rw [← String.toList_inj, urlPassword_eq]
    exact escape_of_kept fun c hc => decide_eq_true (hpassword c hc)

/-- Settings whose credentials have the characters that end a part of the URL. -/
def hardSettings : Settings where
  postgresUser := "me@work"
  postgresPassword := "p/a:s%40"
  postgresServer := "db"
  postgresDb := "apps"

theorem credentials_survive_hard : (DatabaseUrl.parse hardSettings.databaseUrl.toList).map
    (fun url => (url.username, url.password)) = some (some "me@work", some "p/a:s%40") := by
  have hserver : Free ['/', ':', '?', '['] hardSettings.postgresServer.toList := by
    decide
  have hdb : Free ['?'] hardSettings.postgresDb.toList := by
    decide
  rw [(credentials_survive hardSettings hserver hdb fun _ => none).1]
  rfl

/-! ## Redis -/

/-- The characters of a host name. -/
def isHostChar (c : Char) : Bool := c.isAlphanum || c = '-' || c = '.'

/-- What can be read of a URL with a password: all the parts, with the password decoded.  The host
and the port are the texts that stand in the URL: the case of the host is left as it is, and the
port is not tested against its range. -/
structure RedisUrl where
  password : Option String
  host : Option (List Char)
  port : Option (List Char)
  path : List Char

/-- How the URL is read. -/
def RedisUrl.read (url : String) : RedisUrl :=
  let reference := urlsplit url.toList
  let authority := Authority.split (reference.authority.getD [])
  { password := authority.password.bind unquote
    host := authority.host
    port := authority.port
    path := reference.path }

/-- The URL of a password that is not empty. -/
lemma redisUrl_toList {settings : Settings} {server password : String}
    (hserver : settings.redisServer = some server) (hpassword : settings.redisPassword = some password)
    (hne : password ≠ "") :
    settings.redisUrl.toList = "redis".toList ++ [':', '/', '/'] ++
      (':' :: (escape isSafe password.toList ++ '@' ::
        (server.toList ++ ':' :: ((toString settings.redisPort).toList ++ ['/', '0'])))) := by
  have htext : textOr settings.redisPassword none = some password := by
    rw [hpassword]
    simp [textOr, hne]
  have hscheme : "redis://:".toList = "redis".toList ++ [':', '/', '/', ':'] := rfl
  have hat : "@".toList = ['@'] := rfl
  have hcolon : ":".toList = [':'] := rfl
  have hpath : "/0".toList = ['/', '0'] := rfl
  simp only [Settings.redisUrl, htext, hserver, Option.getD_some, quote, String.toList_append,
    String.toList_ofList, hscheme, hat, hcolon, hpath, List.append_assoc, List.cons_append,
    List.nil_append]

/-- A URL without blanks at its start, tabs and line breaks. -/
lemma urlsplit_eq {c : Char} {s : List Char} (hstart : decide (c ≤ ' ') = false)
    (hclean : Free unsafeChars (c :: s)) : urlsplit (c :: s) = Reference.split (c :: s) := by
  have hkeep : ∀ d ∈ c :: s, decide (d ∉ unsafeChars) = true := fun d hd =>
    decide_eq_true (hclean d hd)
  rw [urlsplit, List.dropWhile_cons, hstart, if_neg (by decide), List.filter_eq_self.mpr hkeep]

lemma slash_mem_iff (s : List Char) : '/' ∈ escape isSafe s ↔ '/' ∈ s := by
  constructor
  · intro h
    by_contra hslash
    have hsame : escape isSafe s = escape isUnreserved s := by
      refine List.flatMap_congr fun c hc => ?_
      have hne : c ≠ '/' := by
        rintro rfl
        exact hslash hc
      simp [escapeChar, isSafe, hne]
    rw [hsame] at h
    exact notMem_escape (by decide) (by decide) (by decide) _ h
  · intro h
    refine List.mem_flatMap.mpr ⟨'/', h, ?_⟩
    have hkeep : isSafe '/' = true := by decide
    rw [escapeChar, if_pos hkeep]
    exact List.mem_singleton_self _

section Redis

variable {settings : Settings} {server password : String}

/-- A character that a URL with a password may have after its scheme. -/
def isUrlChar (c : Char) : Bool := isSafe c || c ∈ ['%', ':', '@']

/-- What comes after the slashes: the password, the host, the port and the number of the database. -/
def redisText (server password : String) (port : ℤ) : List Char :=
  ':' :: (escape isSafe password.toList ++ '@' ::
    (server.toList ++ ':' :: ((toString port).toList ++ ['/', '0'])))

lemma redisText_chars (hhost : ∀ c ∈ server.toList, isHostChar c) (port : ℤ) :
    ∀ c ∈ redisText server password port, isUrlChar c = true := by
  have hsafe : ∀ c, isSafe c = true → isUrlChar c = true := by
    intro c hc
    simp [isUrlChar, hc]
  have hdigit : ∀ c : Char, c.isAlphanum = true → isUrlChar c = true := by
    intro c hc
    exact hsafe c (by simp [isSafe, isUnreserved, hc])
  have hpassword := escape_forall hsafe (by decide) hdigit password.toList
  intro c hc
  simp only [redisText, List.mem_cons, List.mem_append, List.not_mem_nil, or_false] at hc
  rcases hc with rfl | hc | rfl | hc | rfl | hc | rfl | rfl
  · decide
  · exact hpassword c hc
  · decide
  · have hchar := hhost c hc
    simp only [isHostChar, Bool.or_eq_true, decide_eq_true_eq] at hchar
    rcases hchar with (hchar | rfl) | rfl
    · exact hdigit c hchar
    · decide
    · decide
  · decide
  · rcases mem_toString_int hc with hchar | rfl
    · exact hdigit c (by simp [Char.isAlphanum, hchar])
    · decide
  · decide
  · decide

/-- How the URL is cut: an authority without a slash, and a path that begins with one. -/
lemma read_redisUrl (hserver : settings.redisServer = some server)
    (hpassword : settings.redisPassword = some password) (hne : password ≠ "")
    (hhost : ∀ c ∈ server.toList, isHostChar c) {authority path : List Char}
    (hparts : redisText server password settings.redisPort = authority ++ '/' :: path)
    (hauthority : '/' ∉ authority) :
    RedisUrl.read settings.redisUrl
      = ⟨(Authority.split authority).password.bind unquote, (Authority.split authority).host,
          (Authority.split authority).port, '/' :: path⟩ := by
  have hchars := @redisText_chars server password hhost settings.redisPort
  have hurl := redisUrl_toList hserver hpassword hne
  rw [← redisText, hparts] at hurl
  rw [hparts] at hchars
  have hclean : Free unsafeChars settings.redisUrl.toList := by
    rw [hurl]
    exact Free.append (by decide) (free_of_forall hchars (by decide))
  have hauthorityFree : Free ['/', '?', '#'] authority := by
    intro c hc hmem
    rcases List.mem_cons.mp hmem with rfl | hmem
    · exact hauthority hc
    · exact free_of_forall hchars (by decide) c (List.mem_append_left _ hc) hmem
  have hpathFree : Free ['?', '#'] ('/' :: path) := fun c hc =>
    free_of_forall hchars (by decide) c (List.mem_append_right _ hc)
  have hsplit := Reference.split_absolute (by decide) (by decide : Free _ "redis".toList)
    hauthorityFree hpathFree (Or.inr rfl)
  rw [List.append_assoc, ← hurl] at hsplit
  have hsplit' : urlsplit settings.redisUrl.toList
      = ⟨some "redis".toList, some authority, '/' :: path, none, none⟩ := by
    rw [← hsplit]
    rw [hurl] at hclean ⊢
    exact urlsplit_eq (by decide) hclean
  simp only [RedisUrl.read, hsplit', Option.getD_some]

/-- **The password of Redis survives** if and only if it has no slash: `quote` keeps a slash, and
the first one ends the authority. -/
theorem redis_password_iff (settings : Settings) (server password : String)
    (hserver : settings.redisServer = some server)
    (hpassword : settings.redisPassword = some password) (hne : password ≠ "")
    (hhost : ∀ c ∈ server.toList, isHostChar c) :
    RedisUrl.read settings.redisUrl
        = ⟨some password, nonempty server.toList, some (toString settings.redisPort).toList,
            ['/', '0']⟩
      ↔ '/' ∉ password.toList := by
  have hat : '@' ∉ escape isSafe password.toList :=
    notMem_escape (by decide) (by decide) (by decide) _
  have hport : ∀ c ∈ (toString settings.redisPort).toList, isHostChar c = true := by
    intro c hc
    rcases mem_toString_int hc with hchar | rfl
    · simp [isHostChar, Char.isAlphanum, hchar]
    · decide
  rw [← slash_mem_iff]
  constructor
  · intro h hslash
    -- the authority ends inside the password, before the `@`
    obtain ⟨front, rest, hsplit, hfront⟩ := List.eq_append_cons_of_mem hslash
    have hauthority : '/' ∉ ':' :: front := by simpa using hfront
    have hparts : redisText server password settings.redisPort = (':' :: front) ++ '/' :: (rest
        ++ '@' :: (server.toList ++ ':' ::
          ((toString settings.redisPort).toList ++ ['/', '0']))) := by
      simp [redisText, hsplit]
    have hplain : '@' ∉ ':' :: front := by
      intro hmem
      rcases List.mem_cons.mp hmem with hmem | hmem
      · cases hmem
      · exact hat (hsplit ▸ List.mem_append_left _ hmem)
    have hread := read_redisUrl hserver hpassword hne hhost hparts hauthority
    rw [h, Authority.split_plain hplain] at hread
    have hnone := congrArg RedisUrl.password hread
    cases hnone
  · intro hslash
    have hparts : redisText server password settings.redisPort
        = ([':'] ++ escape isSafe password.toList ++ '@' :: (server.toList ++ ':' ::
          (toString settings.redisPort).toList)) ++ '/' :: ['0'] := by
      simp [redisText]
    have hhostFree : Free ['/', '[', ':', '@'] server.toList := free_of_forall hhost (by decide)
    have hportFree : Free ['/', '[', '@'] (toString settings.redisPort).toList :=
      free_of_forall hport (by decide)
    have hauthority : '/' ∉ [':'] ++ escape isSafe password.toList ++ '@' :: (server.toList
        ++ ':' :: (toString settings.redisPort).toList) := by
      have hserverSlash : '/' ∉ server.toList := fun hmem => hhostFree _ hmem (by decide)
      have hportSlash : '/' ∉ (toString settings.redisPort).toList := fun hmem =>
        hportFree _ hmem (by decide)
      simp only [List.mem_append, List.mem_cons, List.not_mem_nil, or_false, hslash, hserverSlash,
        hportSlash]
      decide
    have hread := read_redisUrl hserver hpassword hne hhost hparts hauthority
    have hauthoritySplit := @Authority.split_password (escape isSafe password.toList) _ _
      (fun c hc hmem => hhostFree c hc (List.mem_cons_of_mem _ hmem))
      (fun c hc hmem => hportFree c hc (List.mem_cons_of_mem _ hmem))
    have hportText : nonempty (toString settings.redisPort).toList
        = some (toString settings.redisPort).toList := if_neg (port_ne_nil _)
    rw [hread, hauthoritySplit]
    simp only [Option.bind_some, unquote_escape (show isSafe '%' = false by decide), hportText]

end Redis

/-- Settings with a password that has every character but a slash to be careful about. -/
def redisSettings (password : String) : Settings :=
  { hardSettings with redisServer := some "redis", redisPassword := some password }

theorem redis_password_colon : RedisUrl.read (redisSettings "a:b@c?").redisUrl
    = ⟨some "a:b@c?", some "redis".toList, some "6379".toList, ['/', '0']⟩ :=
  (redis_password_iff (redisSettings "a:b@c?") "redis" "a:b@c?" rfl rfl (by decide)
    (List.all_eq_true.mp (by decide))).mpr (by decide)

/-- **A slash in the password** ends the authority: no password is left, and the rest of it is the
port. -/
theorem redis_password_lost : (RedisUrl.read (redisSettings "ab/cd").redisUrl).password = none
    ∧ (RedisUrl.read (redisSettings "ab/cd").redisUrl).port = some ['a', 'b'] := by
  decide +kernel

end Atsig
