import ModelCatalog.Proofs.PercentTriples
import ModelCatalog.Proofs.TextSearch
import ModelCatalog.Settings.Basic

namespace ModelCatalog

theorem redactChars_of_parts {scheme user secret address : List Char} (plain : ¬[':', '/', '/'] <:+: scheme)
    (first : ':' ∉ user) (last : '@' ∉ address) :
    redactChars (scheme ++ ':' :: '/' :: '/' :: (user ++ ':' :: (secret ++ '@' :: address))) =
      some (scheme ++ [':', '/', '/'] ++ user ++ [':', '*', '*', '*', '@'] ++ address) := by
  have start : splitFirst [':', '/', '/']
      (scheme ++ ':' :: '/' :: '/' :: (user ++ ':' :: (secret ++ '@' :: address))) =
      some (scheme, user ++ ':' :: (secret ++ '@' :: address)) :=
    splitFirst_append_of_not_infix (by decide) plain
  have finish : splitLast '@' (user ++ ':' :: (secret ++ '@' :: address)) = some (user ++ ':' :: secret, address) :=
    splitLast_eq_some_iff.mpr ⟨by rw [List.append_assoc, List.cons_append], last⟩
  have colon : splitFirst [':'] (user ++ ':' :: secret) = some (user, secret) := splitFirst_append first
  simp only [redactChars, start, finish, colon]

namespace Settings

/-- What is shown of a URL made of its parts: the user up to its first colon, and what stands after the last `@` of all
that follows the password. The marks that are searched for are never in the password, because it is encoded, but they
may stand in the other parts. -/
theorem redact_urlOf (user host number name : String) :
    ∃ before after : List Char, before <+: user.toList ∧ after <:+ (host ++ ":" ++ number ++ "/" ++ name).toList ∧
      ∀ password, redact (urlOf user password host number name) =
        some ("postgres://" ++ String.ofList before ++ ":***@" ++ String.ofList after) := by
  obtain ⟨before, rest, first, short, absent⟩ := exists_first ':' user.toList
  obtain ⟨gap, after, last, tail, missing⟩ := exists_last '@' (host ++ ":" ++ number ++ "/" ++ name).toList
  refine ⟨before, after, short, tail, fun password => ?_⟩
  have text : (urlOf user password host number name).toList = "postgres://".toList ++ (user.toList ++ [':']) ++
      Percent.encode password.toList ++ '@' :: (host ++ ":" ++ number ++ "/" ++ name).toList := by
    unfold urlOf
    simp
  have url : (urlOf user password host number name).toList = "postgres".toList ++ ':' :: '/' :: '/' ::
      (before ++ ':' :: ((rest ++ Percent.encode password.toList ++ gap) ++ '@' :: after)) := by
    rw [text, first, last]
    simp
  have scheme : ¬[':', '/', '/'] <:+: "postgres".toList := by decide
  rw [redact, url, redactChars_of_parts scheme absent missing, Option.map_some, Option.some_inj, ← String.toList_inj]
  simp

theorem urlOf_inj {user password password' host number name : String} :
    urlOf user password host number name = urlOf user password' host number name ↔ password = password' := by
  refine ⟨fun same => ?_, congrArg fun password => urlOf user password host number name⟩
  unfold urlOf at same
  simp only [String.append_left_inj, String.append_right_inj, String.ofList_inj, Percent.encode_inj,
    String.toList_inj] at same
  exact same

variable {lookup other : String → Option String} {s : Settings}

/-- The settings that a set of variables describes, whether or not they are usable. -/
def described (lookup : String → Option String) : Settings where
  databaseUrl := (lookup "DATABASE_URL").getD <|
    urlOf ((lookup "DB_USER").getD "submarine") ((lookup "DB_PASSWORD").getD "password")
      ((lookup "DB_HOST").getD "localhost") ((lookup "DB_PORT").getD "5432") ((lookup "DB_NAME").getD "submarine")
  schema := (lookup "MODEL_REGISTRY_SCHEMA").filter fun s => !s.toList.all isBlank
  maxConnections := numberOr 10 .unsigned32 (lookup "MAX_CONNECTIONS")
  timeoutSeconds := numberOr 5 .unsigned64 (lookup "POOL_TIMEOUT_SECS")
  logDirectory := lookup "LOG_DIR"

theorem ofVariables_eq : ofVariables lookup =
    if (described lookup).maxConnections = 0 then .error .noConnections else .ok (described lookup) :=
  rfl

theorem ofVariables_eq_ok_iff :
    ofVariables lookup = .ok s ↔ (described lookup).maxConnections ≠ 0 ∧ described lookup = s := by
  rw [ofVariables_eq]
  split
  · exact iff_of_false nofun fun both => both.1 ‹_›
  · exact ⟨fun made => ⟨‹_›, Except.ok.inj made⟩, fun both => congrArg _ both.2⟩

theorem databaseUrl_described (parts : lookup "DATABASE_URL" = none) : (described lookup).databaseUrl =
    urlOf ((lookup "DB_USER").getD "submarine") ((lookup "DB_PASSWORD").getD "password")
      ((lookup "DB_HOST").getD "localhost") ((lookup "DB_PORT").getD "5432") ((lookup "DB_NAME").getD "submarine") := by
  simp only [described, parts, Option.getD_none]

/-- The password is nowhere but in the URL. -/
theorem described_of_agree (parts : lookup "DATABASE_URL" = none)
    (agree : ∀ name, name ≠ "DB_PASSWORD" → other name = lookup name) :
    described other = { described lookup with
      databaseUrl := urlOf ((lookup "DB_USER").getD "submarine") ((other "DB_PASSWORD").getD "password")
        ((lookup "DB_HOST").getD "localhost") ((lookup "DB_PORT").getD "5432")
        ((lookup "DB_NAME").getD "submarine") } := by
  simp [described, agree, parts]

/-- The password reaches the URL in a form from which it can be read back, and without the marks of a URL. What is
shown of the URL is made of the other values, and it stays the same whatever the password is. -/
theorem password_carried_unseen (parts : lookup "DATABASE_URL" = none) (made : ofVariables lookup = .ok s) :
    (∃ encoded : List Char,
      s.databaseUrl = "postgres://" ++ (lookup "DB_USER").getD "submarine" ++ ":" ++ String.ofList encoded ++ "@" ++
        (lookup "DB_HOST").getD "localhost" ++ ":" ++ (lookup "DB_PORT").getD "5432" ++ "/" ++
        (lookup "DB_NAME").getD "submarine" ∧
      Percent.Encoded encoded ∧
      (Percent.decode encoded).toByteArray = ((lookup "DB_PASSWORD").getD "password").toUTF8) ∧
    (∃ before after : List Char, before <+: ((lookup "DB_USER").getD "submarine").toList ∧
      after <:+ ((lookup "DB_HOST").getD "localhost" ++ ":" ++ (lookup "DB_PORT").getD "5432" ++ "/" ++
        (lookup "DB_NAME").getD "submarine").toList ∧
      s.shownUrl = some ("postgres://" ++ String.ofList before ++ ":***@" ++ String.ofList after)) ∧
    ∀ other : String → Option String, (∀ name, name ≠ "DB_PASSWORD" → other name = lookup name) →
      ∃ s', ofVariables other = .ok s' ∧ s'.shownUrl = s.shownUrl ∧
        (s'.databaseUrl = s.databaseUrl ↔
          (other "DB_PASSWORD").getD "password" = (lookup "DB_PASSWORD").getD "password") := by
  obtain ⟨usable, rfl⟩ := ofVariables_eq_ok_iff.mp made
  obtain ⟨before, after, start, finish, shown⟩ := redact_urlOf ((lookup "DB_USER").getD "submarine")
    ((lookup "DB_HOST").getD "localhost") ((lookup "DB_PORT").getD "5432") ((lookup "DB_NAME").getD "submarine")
  have url := databaseUrl_described parts
  refine ⟨⟨Percent.encode ((lookup "DB_PASSWORD").getD "password").toList, url, Percent.encoded_encode _, ?_⟩,
    ⟨before, after, start, finish, ?_⟩, fun other agree => ?_⟩
  · rw [Percent.toByteArray_decode_encode, String.utf8Encode_toList, String.toUTF8_eq_toByteArray]
  · rw [shownUrl, url]
    exact shown _
  · have same := described_of_agree parts agree
    refine ⟨described other, ofVariables_eq_ok_iff.mpr ⟨?_, rfl⟩, ?_, ?_⟩
    · rw [same]
      exact usable
    · rw [same, shownUrl, shownUrl, url, shown, shown]
    · rw [same, url]
      exact urlOf_inj

/-- Variables in which the marks of a URL stand everywhere. -/
def marked (password : Option String) (name : String) : Option String :=
  if name = "DB_PASSWORD" then password
  else [("DB_USER", "a:b@c"), ("DB_HOST", "d@e://f")].lookup name

theorem marked_unseen :
    ∃ s s' : Settings, ofVariables (marked (some "p@://%é")) = .ok s ∧ ofVariables (marked none) = .ok s' ∧
      s.databaseUrl = "postgres://a:b@c:p%40%3A%2F%2F%25%C3%A9@d@e://f:5432/submarine" ∧
      s.shownUrl = some "postgres://a:***@e://f:5432/submarine" ∧ s'.shownUrl = s.shownUrl ∧
      s'.databaseUrl ≠ s.databaseUrl := by
  have made : ofVariables (marked (some "p@://%é")) = .ok (described (marked (some "p@://%é"))) := by decide +kernel
  obtain ⟨-, -, unseen⟩ := password_carried_unseen (by decide +kernel) made
  obtain ⟨s', bare, shown, carried⟩ := unseen (marked none) fun name other => by simp only [marked, if_neg other]
  exact ⟨_, s', made, bare, by decide +kernel, by decide +kernel, shown,
    fun same => absurd (carried.mp same) (by decide +kernel)⟩

end Settings

end ModelCatalog
