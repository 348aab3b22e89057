import SpacerocksCoa.CheckoutUrls
import SpacerocksCoa.ManifestJson

/-!
# Stored recovery sessions

The browser keeps the recovery session as one JSON text. Saving and loading check the fields
alike, and loading alone refuses a text of more than 4096 units and deletes it. No field check
bounds the text: the version of a token, the address of the service and the address of the
checkout may be long.

A text is a list of UTF-16 units. An address is read as characters, a lone surrogate as the
replacement character.
-/
namespace SessionStorage
open JsonText CodeUnits ManifestJson
open CheckoutUrls (Url ServiceMode)

variable {N : Type}

/-! ## Patterns -/

def after (start s : Text) : Option Text :=
  if start.isPrefixOf s then some (s.drop start.length) else none

/-- `^v[1-9][0-9]*\.[A-Za-z0-9_-]{43}$` -/
def tokenPattern (s : Text) : Bool :=
  (after (units "v") s).any fun version =>
    (version.head?.any fun c => 49 ≤ c && c ≤ 57) &&
      (after (units ".") (version.dropWhile digit)).any fun secret =>
        secret.length == 43 && secret.all fun c => alphanumeric c || c == 95 || c == 45

/-- The alphabet without I, L, O and U. -/
def orderChar (c : Nat) : Bool :=
  digit c || (upper c && c != 73 && c != 76 && c != 79 && c != 85)

/-- `^ts_[0-9A-HJKMNP-TV-Z]{26}$` -/
def orderPattern (s : Text) : Bool :=
  (after (units "ts_") s).any fun rest => rest.length == 26 && rest.all orderChar

def certificateChar (c : Nat) : Bool := alphanumeric c || (units "._:-/").contains c

/-- The pattern of a certificate reference: a letter or a digit and up to 127 characters. -/
def certificatePattern (s : Text) : Bool :=
  (s.head?.any alphanumeric) && s.length ≤ 128 && s.all certificateChar

/-! ## Sessions -/

structure TimestampServiceConfig where
  baseUrl : Text
  mode : ServiceMode

def contractVersion : Text := units "phase0-2026-07-30"

def required : List Text :=
  ["token", "orderRef", "certificateReference", "manifestSha256", "apiBase", "apiVersion"].map units

def checkoutKey : Text := units "checkoutUrl"

/-- What a property of an object satisfies; the object has each key once. -/
def property (fields : List (Text × Json N)) (key : String) (holds : Text → Bool) : Bool :=
  fields.any fun field => field.1 == units key &&
    match field.2 with
    | .text s => holds s
    | _ => false

def checkoutAccepted (newUrl : List Char → Option Url) (mode : ServiceMode) : Json N → Bool
  | .text s =>
    match CheckoutUrls.Browser.validateCheckoutUrl newUrl (chars s) mode with
    | .ok _ => true
    | .error _ => false
  | _ => false

def sessionFields (newUrl : List Char → Option Url) (config : TimestampServiceConfig)
    (fields : List (Text × Json N)) : Bool :=
  required.all (fun key => fields.any fun field => field.1 == key) &&
    fields.all (fun field => required.contains field.1 || field.1 == checkoutKey) &&
    property fields "token" tokenPattern && property fields "orderRef" orderPattern &&
    property fields "certificateReference" certificatePattern &&
    property fields "manifestSha256" sha256Pattern &&
    property fields "apiBase" (· == config.baseUrl) &&
    property fields "apiVersion" (· == contractVersion) &&
    fields.all fun field => field.1 != checkoutKey || checkoutAccepted newUrl config.mode field.2

/-- A session is returned as it is. -/
def parseTimestampSession (newUrl : List Char → Option Url) (config : TimestampServiceConfig)
    (value : Json N) : Option (Json N) :=
  match value with
  | .object fields => if sessionFields newUrl config fields then some value else none
  | _ => none

/-! ## Storage -/

/-- A storage that keeps strings. -/
abbrev Storage := Text → Option Text

def Storage.setItem (storage : Storage) (key value : Text) : Storage :=
  fun other => if other = key then some value else storage other

def Storage.removeItem (storage : Storage) (key : Text) : Storage :=
  fun other => if other = key then none else storage other

def sessionKey : Text := units "spacerocks.timestamp.phase0"

/-- `JSON.stringify` without indentation. -/
def plain (numbers : NumberFormat N) : Dialect N where
  numbers := numbers
  escape := quoteUnits
  newline := fun _ => []
  afterColon := []
  escape_spelled := spelled_quoteUnits
  newline_space := fun _ => no_space
  colon_space := no_space

def stringify (numbers : NumberFormat N) (value : Json N) : Text := print (plain numbers) 0 value

/-- `none` when the session is invalid. -/
def saveTimestampSession (numbers : NumberFormat N) (newUrl : List Char → Option Url)
    (session : Json N) (config : TimestampServiceConfig) (storage : Storage) : Option Storage :=
  (parseTimestampSession newUrl config session).map fun validated =>
    storage.setItem sessionKey (stringify numbers validated)

/-- The session, if there is one, and the storage afterwards. -/
def loadTimestampSession (numbers : NumberFormat N) (newUrl : List Char → Option Url)
    (config : TimestampServiceConfig) (storage : Storage) : Option (Json N) × Storage :=
  match storage sessionKey with
  | none => (none, storage)
  | some raw =>
    if raw = [] then (none, storage)
    else if 4096 < raw.length then (none, storage.removeItem sessionKey)
    else
      match jsonParse numbers raw with
      | none => (none, storage.removeItem sessionKey)
      | some value =>
        match parseTimestampSession newUrl config value with
        | none => (none, storage.removeItem sessionKey)
        | some session => (some session, storage)

/-! ## The round trip -/

/-- Loading returns an equal session and keeps the entry. -/
def Survives (numbers : NumberFormat N) (newUrl : List Char → Option Url) (session : Json N)
    (config : TimestampServiceConfig) (storage : Storage) : Prop :=
  ∃ loaded, loadTimestampSession numbers newUrl config storage = (some loaded, storage) ∧
    Same loaded session

section
variable {newUrl : List Char → Option Url} {config : TimestampServiceConfig}

theorem sessionFields_perm {fields reordered : List (Text × Json N)}
    (perm : fields.Perm reordered) :
    sessionFields newUrl config fields = sessionFields newUrl config reordered := by
  have exists_eq (holds : Text × Json N → Bool) : fields.any holds = reordered.any holds :=
    perm.any_eq
  have forall_eq (holds : Text × Json N → Bool) : fields.all holds = reordered.all holds :=
    perm.all_eq
  simp only [sessionFields, property, exists_eq, forall_eq]

theorem property_text {fields : List (Text × Json N)} {key : String} {holds : Text → Bool}
    (has : property fields key holds = true) :
    ∃ field ∈ fields, field.1 = units key ∧ ∃ s, field.2 = .text s := by
  obtain ⟨field, member, good⟩ := List.any_eq_true.1 has
  rw [Bool.and_eq_true, beq_iff_eq] at good
  refine ⟨field, member, good.1, ?_⟩
  cases value : field.2 with
  | text s => exact ⟨s, rfl⟩
  | null => simp [value] at good
  | bool _ => simp [value] at good
  | number _ => simp [value] at good
  | array _ => simp [value] at good
  | object _ => simp [value] at good

/-- Every property of a session is a text. -/
theorem session_texts {fields : List (Text × Json N)} (distinct : (keys fields).Nodup)
    (accepted : sessionFields newUrl config fields = true) :
    ∀ field ∈ fields, ∃ s, field.2 = .text s := by
  simp only [sessionFields, Bool.and_eq_true] at accepted
  obtain ⟨⟨⟨⟨⟨⟨⟨⟨_, allowed⟩, token⟩, order⟩, certificate⟩, manifest⟩, base⟩, version⟩, checkout⟩ :=
    accepted
  intro field member
  have shared {key : String} {holds : Text → Bool} (has : property fields key holds = true)
      (same : field.1 = units key) : ∃ s, field.2 = .text s := by
    obtain ⟨other, present, named, text⟩ := property_text has
    have equal := List.inj_on_of_nodup_map distinct member present (same.trans named.symm)
    rw [equal]
    exact text
  have named := List.all_eq_true.1 allowed field member
  rw [Bool.or_eq_true, beq_iff_eq, List.contains_iff_mem] at named
  rcases named with listed | url
  · simp only [required, List.map_cons, List.map_nil, List.mem_cons, List.not_mem_nil,
      or_false] at listed
    rcases listed with same | same | same | same | same | same
    · exact shared token same
    · exact shared order same
    · exact shared certificate same
    · exact shared manifest same
    · exact shared base same
    · exact shared version same
  · have good := List.all_eq_true.1 checkout field member
    rw [url] at good
    cases value : field.2 with
    | text s => exact ⟨s, rfl⟩
    | null => simp [value, checkoutAccepted] at good
    | bool _ => simp [value, checkoutAccepted] at good
    | number _ => simp [value, checkoutAccepted] at good
    | array _ => simp [value, checkoutAccepted] at good
    | object _ => simp [value, checkoutAccepted] at good

/-- Texts stay as they are when the object around them is built again. -/
theorem rebuildFields_texts {build : List (Text × Json N) → List (Text × Json N)}
    {fields : List (Text × Json N)} (texts : ∀ field ∈ fields, ∃ s, field.2 = .text s) :
    rebuildFields build fields = fields := by
  rw [rebuildFields_map]
  conv_rhs => rw [← List.map_id fields]
  refine List.map_congr_left fun field member => ?_
  obtain ⟨s, text⟩ := texts field member
  rw [text, rebuild, ← text]
  rfl

/-- What the parser makes of a stored session is accepted as the session was. -/
theorem parsed_session {session validated : Json N} (distinct : Distinct session)
    (accepted : parseTimestampSession newUrl config session = some validated) :
    validated = session ∧ parseTimestampSession newUrl config (rebuild parsedObject session) =
      some (rebuild parsedObject session) := by
  cases session with
  | object fields =>
    rw [parseTimestampSession] at accepted
    rw [Distinct, Everywhere] at distinct
    by_cases good : sessionFields newUrl config fields = true
    · rw [if_pos good] at accepted
      have texts := @rebuildFields_texts N parsedObject fields (session_texts distinct.1 good)
      have perm := parsedObject_perm distinct.1
      refine ⟨(Option.some.inj accepted).symm, ?_⟩
      rw [rebuild, texts, parseTimestampSession, sessionFields_perm perm, if_pos good]
    · rw [if_neg good] at accepted
      cases accepted
  | null => cases accepted
  | bool _ => cases accepted
  | number _ => cases accepted
  | text _ => cases accepted
  | array _ => cases accepted

end

theorem stringify_nonempty (numbers : NumberFormat N) (value : Json N) :
    stringify numbers value ≠ [] := by
  obtain ⟨c, word, printed, _⟩ := print_first (plain numbers) 0 value
  rw [stringify, printed]
  exact List.cons_ne_nil c word

/-- A saved session survives exactly when its text has at most 4096 units. -/
theorem session_survives_iff (numbers : NumberFormat N) (newUrl : List Char → Option Url)
    (session : Json N) (config : TimestampServiceConfig) (storage kept : Storage)
    (distinct : Distinct session)
    (saved : saveTimestampSession numbers newUrl session config storage = some kept) :
    Survives numbers newUrl session config kept ↔ (stringify numbers session).length ≤ 4096 := by
  obtain ⟨validated, accepted, stored⟩ := Option.map_eq_some_iff.1 saved
  obtain ⟨same, reread⟩ := parsed_session distinct accepted
  subst same
  subst stored
  have entry : storage.setItem sessionKey (stringify numbers validated) sessionKey =
      some (stringify numbers validated) := if_pos rfl
  have parsed : jsonParse numbers (stringify numbers validated) =
      some (rebuild parsedObject validated) := by
    have read := @parse_print N parsedObject (plain numbers) validated [] no_space
    rwa [List.append_nil] at read
  unfold Survives loadTimestampSession
  rw [entry]
  simp only [if_neg (stringify_nonempty numbers validated)]
  by_cases long : 4096 < (stringify numbers validated).length
  · rw [if_pos long]
    refine ⟨?_, fun short => absurd short (Nat.not_le.2 long)⟩
    rintro ⟨loaded, wrong, _⟩
    cases (Prod.mk.inj wrong).1
  · rw [if_neg long, parsed]
    simp only [reread]
    refine ⟨fun _ => Nat.not_lt.1 long, fun _ => ⟨_, rfl, ?_⟩⟩
    exact rebuild_same (fun _ names => parsedObject_perm names) validated distinct

/-! A session with a long service address and a long checkout address, and one with short ones. -/

def sampleConfig (length : Nat) : TimestampServiceConfig where
  baseUrl := units "https://timestamp.example.test/" ++ List.replicate length 97 ++ [47]
  mode := .sandbox

def sampleCheckout (session fragment : Nat) : Text :=
  units "https://checkout.stripe.com/c/pay/cs_test_" ++ List.replicate session 97 ++ units "#fid" ++
    List.replicate fragment 98

def sampleFields (length session fragment : Nat) : List (Text × Json (Fin 10)) :=
  [(units "token", .text (units "v1." ++ List.replicate 43 65)),
   (units "orderRef", .text (units "ts_" ++ List.replicate 26 48)),
   (units "certificateReference", .text (List.replicate 128 99)),
   (units "manifestSha256", .text (List.replicate 64 48)),
   (units "apiBase", .text (sampleConfig length).baseUrl),
   (units "apiVersion", .text contractVersion), (checkoutKey, .text (sampleCheckout session fragment))]

def sampleSession (length session fragment : Nat) : Json (Fin 10) :=
  .object (sampleFields length session fragment)

theorem sample_distinct (length session fragment : Nat) :
    Distinct (sampleSession length session fragment) := by
  have names : (keys (sampleFields length session fragment)).Nodup := by
    change (["token", "orderRef", "certificateReference", "manifestSha256", "apiBase", "apiVersion",
      "checkoutUrl"].map units).Nodup
    decide
  rw [Distinct, sampleSession, Everywhere, everywhereFields_iff]
  refine ⟨names, fun field member => ?_⟩
  simp only [sampleFields, List.mem_cons, List.not_mem_nil, or_false] at member
  rcases member with same | same | same | same | same | same | same
  all_goals
    rw [same, Everywhere]
    trivial

def noStorage : Storage := fun _ => none

theorem short_session : sessionFields CheckoutUrls.plainUrl (sampleConfig 4)
    (sampleFields 4 20 20) = true ∧
      (stringify oneDigit (sampleSession 4 20 20)).length ≤ 4096 := by
  decide +kernel

theorem long_session : sessionFields CheckoutUrls.plainUrl (sampleConfig 2000)
    (sampleFields 2000 400 1536) = true ∧
      4096 < (stringify oneDigit (sampleSession 2000 400 1536)).length := by
  decide +kernel

def storedSample (length session fragment : Nat) : Storage :=
  noStorage.setItem sessionKey (stringify oneDigit (sampleSession length session fragment))

theorem sample_saved {length session fragment : Nat}
    (good : sessionFields CheckoutUrls.plainUrl (sampleConfig length)
      (sampleFields length session fragment) = true) :
    saveTimestampSession oneDigit CheckoutUrls.plainUrl (sampleSession length session fragment)
        (sampleConfig length) noStorage = some (storedSample length session fragment) := by
  rw [saveTimestampSession, sampleSession, parseTimestampSession, if_pos good]
  rfl

/-- A session that was saved is not found again, and its entry is deleted. -/
theorem long_session_is_deleted :
    saveTimestampSession oneDigit CheckoutUrls.plainUrl (sampleSession 2000 400 1536)
        (sampleConfig 2000) noStorage = some (storedSample 2000 400 1536) ∧
      loadTimestampSession oneDigit CheckoutUrls.plainUrl (sampleConfig 2000)
        (storedSample 2000 400 1536) =
          (none, (storedSample 2000 400 1536).removeItem sessionKey) := by
  obtain ⟨fields, long⟩ := long_session
  refine ⟨sample_saved fields, ?_⟩
  have entry : storedSample 2000 400 1536 sessionKey =
      some (stringify oneDigit (sampleSession 2000 400 1536)) := by
    rw [storedSample, Storage.setItem, if_pos rfl]
  rw [loadTimestampSession, entry]
  simp only [if_neg (stringify_nonempty oneDigit (sampleSession 2000 400 1536)), if_pos long]

theorem short_session_survives :
    saveTimestampSession oneDigit CheckoutUrls.plainUrl (sampleSession 4 20 20)
        (sampleConfig 4) noStorage = some (storedSample 4 20 20) ∧
      Survives oneDigit CheckoutUrls.plainUrl (sampleSession 4 20 20) (sampleConfig 4)
        (storedSample 4 20 20) :=
  ⟨sample_saved short_session.1,
    (session_survives_iff oneDigit CheckoutUrls.plainUrl _ _ noStorage _ (sample_distinct 4 20 20)
      (sample_saved short_session.1)).2 short_session.2⟩

end SessionStorage
