import SpacerocksCoa.OrderRows

/-!
# The checkout address on both sides

The service finalizes a checkout only with an address that it takes for Stripe's, and the
customer's browser opens only an address that it takes for Stripe's. The two grammars are
written twice, in Python over `urlsplit` and in TypeScript over `URL`. A text is a list of
characters; how the browser reads an address is a parameter, of which only the plainest
addresses are known.

Nothing is said about addresses that the service refuses.
-/
namespace CheckoutUrls
open OrderRows (PaymentMode)

/-! ## Texts -/

/-- What `str.isspace` calls white space. -/
def pythonSpace (c : Char) : Bool :=
  (9 ≤ c.toNat && c.toNat ≤ 13) || (28 ≤ c.toNat && c.toNat ≤ 32) || c.toNat == 0x85 ||
    c.toNat == 0xa0 || c.toNat == 0x1680 || (0x2000 ≤ c.toNat && c.toNat ≤ 0x200a) ||
    c.toNat == 0x2028 || c.toNat == 0x2029 || c.toNat == 0x202f || c.toNat == 0x205f ||
    c.toNat == 0x3000

/-- What `trim` removes. -/
def scriptSpace (c : Char) : Bool :=
  (9 ≤ c.toNat && c.toNat ≤ 13) || c.toNat == 32 || c.toNat == 0xa0 || c.toNat == 0x1680 ||
    (0x2000 ≤ c.toNat && c.toNat ≤ 0x200a) || c.toNat == 0x2028 || c.toNat == 0x2029 ||
    c.toNat == 0x202f || c.toNat == 0x205f || c.toNat == 0x3000 || c.toNat == 0xfeff

def strip (space : Char → Bool) (text : List Char) : List Char :=
  ((text.dropWhile space).reverse.dropWhile space).reverse

/-- The length of a text in the units of the browser. -/
def utf16Length : List Char → Nat
  | [] => 0
  | c :: rest => (if 0xffff < c.toNat then 2 else 1) + utf16Length rest

def afterPrefix (start text : List Char) : Option (List Char) :=
  if start.isPrefixOf text then some (text.drop start.length) else none

def letter (c : Char) : Bool :=
  (65 ≤ c.toNat && c.toNat ≤ 90) || (97 ≤ c.toNat && c.toNat ≤ 122)

def digit (c : Char) : Bool := 48 ≤ c.toNat && c.toNat ≤ 57

def alphanumeric (c : Char) : Bool := letter c || digit c

def hexDigit (c : Char) : Bool :=
  digit c || (65 ≤ c.toNat && c.toNat ≤ 70) || (97 ≤ c.toNat && c.toNat ≤ 102)

/-- A backslash, a control character, a blank or the delete character. -/
def unsafeUrlChar (c : Char) : Bool := c == '\\' || c.toNat ≤ 32 || c.toNat == 127

/-! ## The session -/

inductive SessionMode where
  | test | live
  deriving DecidableEq

def sessionBody (rest : List Char) : Bool :=
  1 ≤ rest.length && rest.length ≤ 500 && rest.all alphanumeric

/-- `cs_(test|live)_[A-Za-z0-9]{1,500}` for the whole text, with its group. -/
def sessionPattern (session : List Char) : Option SessionMode :=
  if (afterPrefix "cs_test_".toList session).any sessionBody then some .test
  else if (afterPrefix "cs_live_".toList session).any sessionBody then some .live
  else none

/-- `[A-Za-z0-9._~-]`. -/
def fidChar (c : Char) : Bool := alphanumeric c || c == '.' || c == '_' || c == '~' || c == '-'

/-! ## The service -/

structure SplitResult where
  scheme : List Char
  netloc : List Char
  path : List Char
  query : List Char
  fragment : List Char

def schemeChar (c : Char) : Bool := alphanumeric c || c == '+' || c == '-' || c == '.'

def lowerAscii (c : Char) : Char :=
  if 65 ≤ c.toNat ∧ c.toNat ≤ 90 then Char.ofNat (c.toNat + 32) else c

def splitScheme (url : List Char) : List Char × List Char :=
  let head := url.takeWhile fun c => c != ':'
  let tail := url.dropWhile fun c => c != ':'
  if tail ≠ [] ∧ (head.head?.any letter) = true ∧ head.all schemeChar = true then
    (head.map lowerAscii, tail.drop 1)
  else ([], url)

def delimiter (c : Char) : Bool := c == '/' || c == '?' || c == '#'

/-- A text before the first such character, and what follows that character. -/
def partitionAt (mark : Char) (text : List Char) : List Char × List Char :=
  (text.takeWhile fun c => c != mark, (text.dropWhile fun c => c != mark).drop 1)

/-- A bracket without its partner. -/
def unbalanced (netloc : List Char) : Bool := netloc.contains '[' != netloc.contains ']'

/-- `urlsplit`, or no result for a `ValueError`; whether a network location with brackets or
other characters than ASCII ones is refused is left open. -/
def urlsplit (netlocRefused : List Char → Bool) (value : List Char) : Option SplitResult :=
  let url := (value.dropWhile fun c => c.toNat ≤ 32).filter fun c =>
    c != '\t' && c != '\r' && c != '\n'
  let parts := splitScheme url
  let located : List Char × List Char := match afterPrefix "//".toList parts.2 with
    | some rest => (rest.takeWhile fun c => !delimiter c, rest.dropWhile fun c => !delimiter c)
    | none => ([], parts.2)
  let fragmented := partitionAt '#' located.2
  let queried := partitionAt '?' fragmented.1
  if unbalanced located.1 = true then none
  else if (located.1.contains '[' || located.1.any fun c => 127 < c.toNat) = true ∧
      netlocRefused located.1 = true then none
  else some ⟨parts.1, located.1, queried.1, queried.2, fragmented.2⟩

def SplitResult.hasUsername (parsed : SplitResult) : Bool := parsed.netloc.contains '@'

/-- `(?:[A-Za-z0-9._~-]|%[A-Fa-f0-9]{2})+` up to the end. -/
def fragmentUnits : List Char → Bool
  | [] => true
  | '%' :: a :: b :: rest => hexDigit a && hexDigit b && fragmentUnits rest
  | c :: rest => fidChar c && fragmentUnits rest

def stripeFragmentPattern (fragment : List Char) : Bool :=
  (afterPrefix "fid".toList fragment).any fun rest =>
    16 ≤ rest.length && rest.length ≤ 1536 && fragmentUnits rest

def expectedSessionMode : PaymentMode → Option SessionMode
  | .stripeLive => some .live
  | .fixture => some .test
  | .stripeTest => some .test
  | .disabled => none

/-- The text of the `PaymentProviderError`. -/
def unsafeCheckoutUrl : String := "provider returned an unsafe checkout URL"

/-- `_validate_checkout_url` of the service. -/
def Service.validateCheckoutUrl (netlocRefused : List Char → Bool) (value session : List Char)
    (paymentMode : PaymentMode) : Except String Unit :=
  match expectedSessionMode paymentMode with
  | none => .error unsafeCheckoutUrl
  | some expected =>
    match urlsplit netlocRefused value with
    | none => .error unsafeCheckoutUrl
    | some parsed =>
      if 2048 < value.length ∨ strip pythonSpace value ≠ value ∨
          value.any unsafeUrlChar = true ∨
          "https://checkout.stripe.com/".toList.isPrefixOf value = false ∨
          sessionPattern session ≠ some expected ∨ parsed.scheme ≠ "https".toList ∨
          parsed.netloc ≠ "checkout.stripe.com".toList ∨ SplitResult.hasUsername parsed = true ∨
          parsed.path ≠ "/c/pay/".toList ++ session ∨ parsed.query ≠ [] ∨
          (value.contains '#' = true ∧ stripeFragmentPattern parsed.fragment = false) then
        .error unsafeCheckoutUrl
      else .ok ()

/-! ## The browser -/

/-- The parts of a `URL`. -/
structure Url where
  protocol : List Char
  host : List Char
  username : List Char
  password : List Char
  pathname : List Char
  search : List Char
  hash : List Char

inductive ServiceMode where
  | sandbox | production
  deriving DecidableEq

/-- `/%(?:2f|5c)/i`. -/
def encodedSlash : List Char → Bool
  | [] => false
  | '%' :: a :: b :: rest =>
    (a == '2' && (b == 'f' || b == 'F')) || (a == '5' && (b == 'c' || b == 'C')) ||
      encodedSlash (a :: b :: rest)
  | _ :: rest => encodedSlash rest

/-- `/%25(?:2e|2f|5c)/i`. -/
def encodedTwice : List Char → Bool
  | [] => false
  | '%' :: '2' :: '5' :: a :: b :: rest =>
    (a == '2' && (b == 'e' || b == 'E' || b == 'f' || b == 'F')) ||
      (a == '5' && (b == 'c' || b == 'C')) || encodedTwice ('2' :: '5' :: a :: b :: rest)
  | _ :: rest => encodedTwice rest

/-- `replace(/%2e/gi, ".")`. -/
def decodeDots : List Char → List Char
  | [] => []
  | '%' :: '2' :: 'e' :: rest => '.' :: decodeDots rest
  | '%' :: '2' :: 'E' :: rest => '.' :: decodeDots rest
  | c :: rest => c :: decodeDots rest

/-- `split("/")`. -/
def segments : List Char → List (List Char)
  | [] => [[]]
  | c :: rest =>
    if c = '/' then [] :: segments rest
    else (segments rest).modifyHead fun segment => c :: segment

def unsafeSegment (segment : List Char) : Bool :=
  decodeDots segment == ['.'] || decodeDots segment == ['.', '.'] || encodedTwice segment

/-- The path of `/^[A-Za-z][A-Za-z0-9+.-]*:\/\/[^/?#]*(\/[^?#]*)?/`, if it matches. -/
def rawPath (rawUrl : List Char) : Option (List Char) :=
  let scheme := rawUrl.takeWhile schemeChar
  if (scheme.head?.any letter) = false then none
  else
    (afterPrefix "://".toList (rawUrl.drop scheme.length)).map fun rest =>
      let tail := rest.dropWhile fun c => !delimiter c
      if tail.head? = some '/' then tail.takeWhile fun c => c != '?' && c != '#' else ['/']

def hasUnsafeRawPath (rawUrl : List Char) : Bool :=
  if rawUrl.any (fun c => c == '\\' || c.toNat ≤ 31 || c.toNat == 127) || encodedSlash rawUrl then
    true
  else
    match rawPath rawUrl with
    | none => true
    | some path => (segments path).any unsafeSegment

/-- The group of `/^https:\/\/([^/?#]+)/`. -/
def authority (value : List Char) : Option (List Char) :=
  ((afterPrefix "https://".toList value).map fun rest =>
    rest.takeWhile fun c => !delimiter c).filter fun host => host ≠ []

/-- `/^fid[A-Za-z0-9._~-]{16,1536}$/`. -/
def checkoutFragmentPattern (fragment : List Char) : Bool :=
  (afterPrefix "fid".toList fragment).any fun rest =>
    16 ≤ rest.length && rest.length ≤ 1536 && rest.all fidChar

def expectedMode : ServiceMode → SessionMode
  | .production => .live
  | .sandbox => .test

/-- The session of `/^\/c\/pay\/(cs_(test|live)_[A-Za-z0-9]{1,500})$/`. -/
def pathSession (pathname : List Char) : Option SessionMode :=
  (afterPrefix "/c/pay/".toList pathname).bind sessionPattern

def invalidUrl : String := "The checkout service returned an invalid URL."

def blockedUrl : String :=
  "Checkout was blocked because the destination is not Stripe's exact secure host."

/-- `validateCheckoutUrl` of the browser. -/
def Browser.validateCheckoutUrl (newUrl : List Char → Option Url) (value : List Char)
    (mode : ServiceMode) : Except String (List Char) :=
  if 2048 < utf16Length value ∨ strip scriptSpace value ≠ value ∨
      value.any unsafeUrlChar = true ∨ hasUnsafeRawPath value = true then .error invalidUrl
  else
    match newUrl value with
    | none => .error invalidUrl
    | some url =>
      if authority value ≠ some "checkout.stripe.com".toList ∨
          url.protocol ≠ "https:".toList ∨ url.host ≠ "checkout.stripe.com".toList ∨
          url.username ≠ [] ∨ url.password ≠ [] ∨ url.search ≠ [] ∨
          pathSession url.pathname ≠ some (expectedMode mode) ∨
          (value.contains '#' = true ∧ checkoutFragmentPattern (url.hash.drop 1) = false) then
        .error blockedUrl
      else .ok value

/-- The configuration of the browser for a mode of the service. -/
def matchingMode : PaymentMode → ServiceMode
  | .stripeLive => .production
  | _ => .sandbox

/-! ## What is relied on -/

def pathChar (c : Char) : Bool := alphanumeric c || c == '_' || c == '/'

def queryText (emptyQuery : Bool) : List Char := if emptyQuery then ['?'] else []

def hashText : Option (List Char) → List Char
  | none => []
  | some fragment => '#' :: fragment

/-- An address without anything to decode or to normalize is read as it is written. -/
def ReadsPlainUrls (newUrl : List Char → Option Url) : Prop :=
  ∀ path emptyQuery fragment, path.all pathChar = true →
    (∀ text, fragment = some text →
      text ≠ [] ∧ text.all (fun c => fidChar c || c == '%') = true) →
    newUrl ("https://checkout.stripe.com/".toList ++ path ++ queryText emptyQuery ++
      hashText fragment) =
        some ⟨"https:".toList, "checkout.stripe.com".toList, [], [], '/' :: path, [],
          hashText fragment⟩

/-! ## Lists -/

theorem partitionAt_text (mark : Char) (text : List Char) :
    text = (partitionAt mark text).1 ∨
      text = (partitionAt mark text).1 ++ mark :: (partitionAt mark text).2 := by
  induction text with
  | nil => exact Or.inl rfl
  | cons c rest ih =>
    by_cases same : c = mark
    · subst same
      right
      simp [partitionAt]
    · simp only [partitionAt] at ih
      simpa [partitionAt, same] using ih

theorem all_decided {P : Char → Prop} [DecidablePred P] {text : List Char}
    (all : text.all (fun c => decide (P c)) = true) : ∀ c ∈ text, P c := fun c member =>
  of_decide_eq_true (List.all_eq_true.1 all c member)

theorem takeWhile_stop {p : Char → Bool} {before after : List Char}
    (all : ∀ c ∈ before, p c = true) (stop : ∀ c ∈ after.head?, p c = false) :
    (before ++ after).takeWhile p = before := by
  rw [List.takeWhile_append_of_pos all]
  cases after with
  | nil => rw [List.takeWhile_nil, List.append_nil]
  | cons c rest =>
    have no := stop c rfl
    rw [List.takeWhile_cons_of_neg (by rw [no]; exact nofun), List.append_nil]

theorem strip_eq {space : Char → Bool} {text : List Char} (none : ∀ c ∈ text, space c = false) :
    strip space text = text := by
  have keeps : ∀ l : List Char, (∀ c ∈ l, space c = false) → l.dropWhile space = l := by
    intro l all
    cases l with
    | nil => rfl
    | cons c rest =>
      exact List.dropWhile_cons_of_neg (by rw [all c List.mem_cons_self]; exact nofun)
  rw [strip, keeps text none, keeps _ fun c member => none c (List.mem_reverse.1 member),
    List.reverse_reverse]

theorem utf16Length_eq {text : List Char} (plain : ∀ c ∈ text, c.toNat ≤ 126) :
    utf16Length text = text.length := by
  induction text with
  | nil => rfl
  | cons c rest ih =>
    have small := plain c List.mem_cons_self
    rw [utf16Length, ih fun d member => plain d (List.mem_cons_of_mem _ member), if_neg (by omega),
      List.length_cons, Nat.add_comm]

/-! ## Plain characters -/

/-- What an address can hold that the service takes. -/
def plainChar (c : Char) : Bool :=
  fidChar c || c == '/' || c == ':' || c == '?' || c == '#' || c == '%'

theorem plainChar_range {c : Char} (plain : plainChar c = true) :
    33 ≤ c.toNat ∧ c.toNat ≤ 126 ∧ c ≠ '\\' := by
  have apart : ∀ {d : Char}, c = d → c.toNat = d.toNat := fun same => congrArg Char.toNat same
  simp only [plainChar, fidChar, alphanumeric, letter, digit, Bool.or_eq_true, Bool.and_eq_true,
    decide_eq_true_eq, beq_iff_eq] at plain
  have cases' : (65 ≤ c.toNat ∧ c.toNat ≤ 90) ∨ (97 ≤ c.toNat ∧ c.toNat ≤ 122) ∨
      (48 ≤ c.toNat ∧ c.toNat ≤ 57) ∨
      c ∈ (['.', '_', '~', '-', '/', ':', '?', '#', '%'] : List Char) := by
    simpa only [or_assoc, List.mem_cons, List.not_mem_nil, or_false] using plain
  have codes : ∀ d ∈ (['.', '_', '~', '-', '/', ':', '?', '#', '%'] : List Char),
      33 ≤ d.toNat ∧ d.toNat ≤ 126 ∧ d.toNat ≠ 92 := all_decided (by decide)
  have range : 33 ≤ c.toNat ∧ c.toNat ≤ 126 ∧ c.toNat ≠ 92 := by
    rcases cases' with upper | lower | number | listed
    · omega
    · omega
    · omega
    · exact codes c listed
  exact ⟨range.1, range.2.1, fun same => range.2.2 (apart same)⟩

/-! ## What the service accepts -/

/-- The addresses of a session: its path, perhaps an empty query, perhaps a fragment. -/
def address (session : List Char) (emptyQuery : Bool) (fragment : Option (List Char)) :
    List Char :=
  "https://checkout.stripe.com/".toList ++ ("c/pay/".toList ++ session) ++ queryText emptyQuery ++
    hashText fragment

theorem afterPrefix_some {start text rest : List Char}
    (found : afterPrefix start text = some rest) : text = start ++ rest := by
  unfold afterPrefix at found
  split at found
  · next isPrefix =>
    cases found
    obtain ⟨tail, rfl⟩ := List.isPrefixOf_iff_prefix.1 isPrefix
    rw [List.drop_left]
  · cases found

theorem afterPrefix_append (start rest : List Char) :
    afterPrefix start (start ++ rest) = some rest := by
  have isPrefix : start.isPrefixOf (start ++ rest) = true :=
    List.isPrefixOf_iff_prefix.2 (List.prefix_append _ _)
  rw [afterPrefix, if_pos isPrefix, List.drop_left]

theorem sessionPattern_chars {session : List Char} {mode : SessionMode}
    (matched : sessionPattern session = some mode) :
    ∀ c ∈ session, alphanumeric c = true ∨ c = '_' := by
  have body : ∀ start : List Char, (∀ c ∈ start, alphanumeric c = true ∨ c = '_') →
      (afterPrefix start session).any sessionBody = true →
        ∀ c ∈ session, alphanumeric c = true ∨ c = '_' := by
    intro start plain found
    cases after : afterPrefix start session with
    | none =>
      rw [after] at found
      cases found
    | some rest =>
      rw [after, Option.any_some] at found
      rw [afterPrefix_some after]
      intro c member
      rcases List.mem_append.1 member with before | later
      · exact plain c before
      · simp only [sessionBody, Bool.and_eq_true, List.all_eq_true] at found
        exact Or.inl (found.2 c later)
  unfold sessionPattern at matched
  split at matched
  · next test => exact body _ (all_decided (by decide)) test
  · split at matched
    · next live => exact body _ (all_decided (by decide)) live
    · cases matched

theorem fragmentUnits_chars : ∀ text : List Char, fragmentUnits text = true →
    ∀ c ∈ text, fidChar c = true ∨ c = '%' := by
  intro text
  induction text using fragmentUnits.induct with
  | case1 =>
    intro _ c member
    exact absurd member List.not_mem_nil
  | case2 a b rest ih =>
    intro held c member
    simp only [fragmentUnits, Bool.and_eq_true] at held
    have hex : ∀ d, hexDigit d = true → fidChar d = true := by
      intro d digits
      simp only [hexDigit, digit, fidChar, alphanumeric, letter, Bool.or_eq_true,
        Bool.and_eq_true, decide_eq_true_eq] at digits ⊢
      omega
    rcases List.mem_cons.1 member with rfl | later
    · exact Or.inr rfl
    · rcases List.mem_cons.1 later with rfl | later
      · exact Or.inl (hex _ held.1.1)
      · rcases List.mem_cons.1 later with rfl | later
        · exact Or.inl (hex _ held.1.2)
        · exact ih held.2 c later
  | case3 d rest _ ih =>
    intro held c member
    simp only [fragmentUnits, Bool.and_eq_true] at held
    rcases List.mem_cons.1 member with rfl | later
    · exact Or.inl held.1
    · exact ih held.2 c later

theorem urlsplit_checkout (netlocRefused : List Char → Bool) {tail : List Char}
    (safe : ∀ c ∈ tail, unsafeUrlChar c = false) :
    urlsplit netlocRefused ("https://checkout.stripe.com/".toList ++ tail) =
      some ⟨"https".toList, "checkout.stripe.com".toList,
        (partitionAt '?' (partitionAt '#' ('/' :: tail)).1).1,
        (partitionAt '?' (partitionAt '#' ('/' :: tail)).1).2,
        (partitionAt '#' ('/' :: tail)).2⟩ := by
  have kept : (tail.filter fun c => c != '\t' && c != '\r' && c != '\n') = tail := by
    refine List.filter_eq_self.2 ?_
    intro c member
    have fine := safe c member
    simp only [unsafeUrlChar, Bool.or_eq_false_iff, beq_eq_false_iff_ne, ne_eq,
      decide_eq_false_iff_not] at fine
    have apart : ∀ d : Char, d.toNat ≤ 32 → c ≠ d := by
      intro d small same
      rw [same] at fine
      exact fine.1.2 small
    simp only [bne_iff_ne, ne_eq, Bool.and_eq_true]
    exact ⟨⟨apart _ (by decide), apart _ (by decide)⟩, apart _ (by decide)⟩
  have cleaned : ((("https://checkout.stripe.com/".toList ++ tail).dropWhile fun c =>
      c.toNat ≤ 32).filter fun c => c != '\t' && c != '\r' && c != '\n') =
        "https://checkout.stripe.com/".toList ++ tail := by
    have step : ((("https://checkout.stripe.com/".toList ++ tail).dropWhile fun c =>
        c.toNat ≤ 32).filter fun c => c != '\t' && c != '\r' && c != '\n') =
          "https://checkout.stripe.com/".toList ++
            tail.filter fun c => c != '\t' && c != '\r' && c != '\n' := rfl
    rw [step, kept]
  unfold urlsplit
  rw [cleaned]
  rfl

/-- What is left of an address without a query, in its parts. -/
theorem tail_shape {tail session : List Char}
    (path : (partitionAt '?' (partitionAt '#' ('/' :: tail)).1).1 = '/' :: session)
    (query : (partitionAt '?' (partitionAt '#' ('/' :: tail)).1).2 = []) :
    ∃ emptyQuery fragment, tail = session ++ queryText emptyQuery ++ hashText fragment ∧
      ∀ text, fragment = some text →
        '#' ∈ tail ∧ text = (partitionAt '#' ('/' :: tail)).2 := by
  have before : ∃ emptyQuery, (partitionAt '#' ('/' :: tail)).1 =
      '/' :: (session ++ queryText emptyQuery) := by
    rcases partitionAt_text '?' (partitionAt '#' ('/' :: tail)).1 with whole | marked
    · refine ⟨false, ?_⟩
      rw [whole, path, queryText, if_neg nofun, List.append_nil]
    · refine ⟨true, ?_⟩
      rw [marked, path, query]
      rfl
  obtain ⟨emptyQuery, before⟩ := before
  refine ⟨emptyQuery, ?_⟩
  rcases partitionAt_text '#' ('/' :: tail) with whole | marked
  · refine ⟨none, ?_, nofun⟩
    rw [before] at whole
    rw [(List.cons.inj whole).2, hashText, List.append_nil]
  · refine ⟨some (partitionAt '#' ('/' :: tail)).2, ?_, ?_⟩
    · rw [before, List.cons_append] at marked
      exact (List.cons.inj marked).2
    · intro text known
      cases known
      refine ⟨?_, rfl⟩
      rw [before, List.cons_append] at marked
      rw [(List.cons.inj marked).2]
      exact List.mem_append_right _ List.mem_cons_self

theorem service_accepts {netlocRefused : List Char → Bool} {value session : List Char}
    {paymentMode : PaymentMode}
    (accepted : Service.validateCheckoutUrl netlocRefused value session paymentMode = .ok ()) :
    ∃ expected emptyQuery fragment, expectedSessionMode paymentMode = some expected ∧
      value = address session emptyQuery fragment ∧ value.length ≤ 2048 ∧
      sessionPattern session = some expected ∧
      ∀ text, fragment = some text → stripeFragmentPattern text = true := by
  unfold Service.validateCheckoutUrl at accepted
  cases mode : expectedSessionMode paymentMode with
  | none =>
    rw [mode] at accepted
    cases accepted
  | some expected =>
    simp only [mode] at accepted
    split at accepted
    · cases accepted
    · next parsed split' =>
      split at accepted
      · cases accepted
      · next passes =>
        simp only [not_or, Bool.not_eq_true, Bool.not_eq_false, ne_eq, not_not, not_and] at passes
        obtain ⟨short, _, safe, start, matched, _, _, _, path, query, fragmented⟩ := passes
        obtain ⟨tail, rfl⟩ := List.isPrefixOf_iff_prefix.1 start
        have safeTail : ∀ c ∈ tail, unsafeUrlChar c = false := by
          intro c member
          have all := List.any_eq_false.1 safe c (List.mem_append_right _ member)
          exact Bool.eq_false_iff.2 all
        rw [urlsplit_checkout netlocRefused safeTail, Option.some.injEq] at split'
        subst split'
        have route : "/c/pay/".toList ++ session = '/' :: ("c/pay/".toList ++ session) := rfl
        rw [route] at path
        obtain ⟨emptyQuery, fragment, shape, told⟩ := tail_shape path query
        refine ⟨expected, emptyQuery, fragment, rfl, ?_, Nat.le_of_not_lt short, matched, ?_⟩
        · subst shape
          unfold address
          simp only [List.append_assoc]
        · intro text known
          obtain ⟨hash, same⟩ := told text known
          rw [same]
          refine fragmented ?_
          exact List.contains_iff_mem.2 (List.mem_append_right _ hash)

/-! ## What the browser makes of it -/

theorem encodedSlash_none : ∀ text : List Char, (∀ c ∈ text, c ≠ '%') →
    encodedSlash text = false := by
  intro text
  induction text using encodedSlash.induct with
  | case1 => exact fun _ => rfl
  | case2 a b rest _ =>
    intro none
    exact absurd rfl (none '%' List.mem_cons_self)
  | case3 c rest other ih =>
    intro none
    rw [encodedSlash]
    · exact ih fun d member => none d (List.mem_cons_of_mem _ member)
    · exact other

theorem encodedTwice_none : ∀ text : List Char, (∀ c ∈ text, c ≠ '%') →
    encodedTwice text = false := by
  intro text
  induction text using encodedTwice.induct with
  | case1 => exact fun _ => rfl
  | case2 a b rest _ =>
    intro none
    exact absurd rfl (none '%' List.mem_cons_self)
  | case3 c rest other ih =>
    intro none
    rw [encodedTwice]
    · exact ih fun d member => none d (List.mem_cons_of_mem _ member)
    · exact other

theorem decodeDots_none : ∀ text : List Char, (∀ c ∈ text, c ≠ '%') →
    decodeDots text = text := by
  intro text
  induction text using decodeDots.induct with
  | case1 => exact fun _ => rfl
  | case2 rest _ =>
    intro none
    exact absurd rfl (none '%' List.mem_cons_self)
  | case3 rest _ =>
    intro none
    exact absurd rfl (none '%' List.mem_cons_self)
  | case4 c rest lower upper ih =>
    intro none
    rw [decodeDots]
    · rw [ih fun d member => none d (List.mem_cons_of_mem _ member)]
    · exact lower
    · exact upper

theorem segments_chars : ∀ (text segment : List Char), segment ∈ segments text →
    ∀ c ∈ segment, c ∈ text := by
  intro text
  induction text with
  | nil =>
    intro segment member c inside
    rw [List.mem_singleton.1 member] at inside
    exact absurd inside List.not_mem_nil
  | cons d rest ih =>
    intro segment member c inside
    rw [segments] at member
    split at member
    · rcases List.mem_cons.1 member with rfl | later
      · exact absurd inside List.not_mem_nil
      · exact List.mem_cons_of_mem _ (ih segment later c inside)
    · cases found : segments rest with
      | nil =>
        rw [found] at member
        exact absurd member List.not_mem_nil
      | cons first others =>
        rw [found, List.modifyHead_cons] at member
        rcases List.mem_cons.1 member with rfl | later
        · rcases List.mem_cons.1 inside with rfl | deeper
          · exact List.mem_cons_self
          · refine List.mem_cons_of_mem _ (ih first ?_ c deeper)
            rw [found]
            exact List.mem_cons_self
        · refine List.mem_cons_of_mem _ (ih segment ?_ c inside)
          rw [found]
          exact List.mem_cons_of_mem _ later

theorem unsafeSegment_none {segment : List Char} (plain : ∀ c ∈ segment, c ≠ '%' ∧ c ≠ '.') :
    unsafeSegment segment = false := by
  have same := decodeDots_none segment fun c member => (plain c member).1
  have once := encodedTwice_none segment fun c member => (plain c member).1
  rw [unsafeSegment, same, once]
  cases segment with
  | nil => rfl
  | cons c rest =>
    have dotless : (c == '.') = false := beq_eq_false_iff_ne.2 (plain c List.mem_cons_self).2
    simp [dotless]

theorem rawPath_checkout (rest : List Char) :
    rawPath ("https://checkout.stripe.com/".toList ++ rest) =
      some (('/' :: rest).takeWhile fun c => c != '?' && c != '#') := rfl

theorem authority_checkout (rest : List Char) :
    authority ("https://checkout.stripe.com/".toList ++ rest) =
      some "checkout.stripe.com".toList := rfl

/-- The path of an accepted address. -/
def sessionPath (session : List Char) : List Char := "c/pay/".toList ++ session

theorem sessionPath_chars {session : List Char} {mode : SessionMode}
    (matched : sessionPattern session = some mode) :
    ∀ c ∈ sessionPath session, alphanumeric c = true ∨ c = '_' ∨ c = '/' := by
  intro c member
  rcases List.mem_append.1 member with start | inside
  · have fixed : ∀ d ∈ "c/pay/".toList, alphanumeric d = true ∨ d = '_' ∨ d = '/' :=
      all_decided (by decide)
    exact fixed c start
  · rcases sessionPattern_chars matched c inside with plain | under
    · exact Or.inl plain
    · exact Or.inr (Or.inl under)

theorem fragment_units {text : List Char} (matched : stripeFragmentPattern text = true) :
    ∃ rest, text = "fid".toList ++ rest ∧ 16 ≤ rest.length ∧ rest.length ≤ 1536 ∧
      fragmentUnits rest = true := by
  unfold stripeFragmentPattern at matched
  cases after : afterPrefix "fid".toList text with
  | none =>
    rw [after] at matched
    cases matched
  | some rest =>
    rw [after] at matched
    simp only [Option.any_some, Bool.and_eq_true, decide_eq_true_eq] at matched
    exact ⟨rest, afterPrefix_some after, matched.1.1, matched.1.2, matched.2⟩

theorem fragment_chars {text : List Char} (matched : stripeFragmentPattern text = true) :
    text ≠ [] ∧ ∀ c ∈ text, fidChar c = true ∨ c = '%' := by
  obtain ⟨rest, rfl, _, _, units⟩ := fragment_units matched
  refine ⟨nofun, ?_⟩
  intro c member
  rcases List.mem_append.1 member with start | later
  · have fixed : ∀ d ∈ "fid".toList, fidChar d = true ∨ d = '%' := all_decided (by decide)
    exact fixed c start
  · exact fragmentUnits_chars rest units c later

/-- Without a percent sign the two patterns of a fragment are one. -/
theorem checkoutFragment_iff {text : List Char} (matched : stripeFragmentPattern text = true) :
    checkoutFragmentPattern text = true ↔ '%' ∉ text := by
  obtain ⟨rest, rfl, long, short, units⟩ := fragment_units matched
  rw [checkoutFragmentPattern, afterPrefix_append]
  simp only [Option.any_some, Bool.and_eq_true, decide_eq_true_eq, List.all_eq_true]
  have start : '%' ∉ "fid".toList := by decide
  constructor
  · rintro ⟨_, all⟩ member
    rcases List.mem_append.1 member with wrong | inside
    · exact start wrong
    · have fid := all '%' inside
      revert fid
      decide
  · intro none
    refine ⟨⟨long, short⟩, ?_⟩
    intro c member
    rcases fragmentUnits_chars rest units c member with fid | percent
    · exact fid
    · rw [percent] at member
      exact absurd (List.mem_append_right _ member) none

theorem fid_of_path {c : Char} (path : alphanumeric c = true ∨ c = '_' ∨ c = '/') :
    plainChar c = true ∧ c ≠ '%' ∧ c ≠ '.' ∧ c ≠ '?' ∧ c ≠ '#' := by
  rcases path with plain | rfl | rfl
  · refine ⟨?_, ?_, ?_, ?_, ?_⟩
    · simp [plainChar, fidChar, plain]
    all_goals
      rintro rfl
      revert plain
      decide
  · decide
  · decide

theorem address_chars {session : List Char} {mode : SessionMode} {emptyQuery : Bool}
    {fragment : Option (List Char)} (matched : sessionPattern session = some mode)
    (fine : ∀ text, fragment = some text → stripeFragmentPattern text = true) :
    ∀ c ∈ address session emptyQuery fragment, plainChar c = true := by
  intro c member
  rcases List.mem_append.1 member with before | hash
  · rcases List.mem_append.1 before with front | query
    · rcases List.mem_append.1 front with origin | path
      · have fixed : ∀ d ∈ "https://checkout.stripe.com/".toList, plainChar d = true :=
          all_decided (by decide)
        exact fixed c origin
      · exact (fid_of_path (sessionPath_chars matched c path)).1
    · cases emptyQuery with
      | false => exact absurd query List.not_mem_nil
      | true =>
        rw [List.mem_singleton.1 query]
        decide
  · cases fragment with
    | none => exact absurd hash List.not_mem_nil
    | some text =>
      rcases List.mem_cons.1 hash with rfl | inside
      · decide
      · rcases (fragment_chars (fine text rfl)).2 c inside with fid | rfl
        · simp [plainChar, fid]
        · decide

theorem percent_in_fragment {session : List Char} {mode : SessionMode} {emptyQuery : Bool}
    {fragment : Option (List Char)} (matched : sessionPattern session = some mode) :
    '%' ∈ address session emptyQuery fragment ↔ ∃ text, fragment = some text ∧ '%' ∈ text := by
  constructor
  · intro member
    rcases List.mem_append.1 member with before | hash
    · rcases List.mem_append.1 before with front | query
      · rcases List.mem_append.1 front with origin | path
        · have fixed : '%' ∉ "https://checkout.stripe.com/".toList := by decide
          exact absurd origin fixed
        · exact absurd rfl (fid_of_path (sessionPath_chars matched '%' path)).2.1
      · cases emptyQuery with
        | false => exact absurd query List.not_mem_nil
        | true => exact absurd query (by decide)
    · cases fragment with
      | none => exact absurd hash List.not_mem_nil
      | some text =>
        rcases List.mem_cons.1 hash with wrong | inside
        · cases wrong
        · exact ⟨text, rfl, inside⟩
  · rintro ⟨text, rfl, inside⟩
    exact List.mem_append_right _ (List.mem_cons_of_mem _ inside)

theorem address_read {newUrl : List Char → Option Url} (reads : ReadsPlainUrls newUrl)
    {session : List Char} {mode : SessionMode} {emptyQuery : Bool}
    {fragment : Option (List Char)} (matched : sessionPattern session = some mode)
    (fine : ∀ text, fragment = some text → stripeFragmentPattern text = true) :
    newUrl (address session emptyQuery fragment) =
      some ⟨"https:".toList, "checkout.stripe.com".toList, [], [], '/' :: sessionPath session, [],
        hashText fragment⟩ := by
  refine reads (sessionPath session) emptyQuery fragment ?_ ?_
  · rw [List.all_eq_true]
    intro c member
    rcases sessionPath_chars matched c member with plain | rfl | rfl
    · simp [pathChar, plain]
    · decide
    · decide
  · intro text known
    obtain ⟨some, chars⟩ := fragment_chars (fine text known)
    refine ⟨some, List.all_eq_true.2 ?_⟩
    intro c member
    rcases chars c member with fid | rfl
    · rw [fid]
      rfl
    · decide

theorem pathSession_eq (session : List Char) :
    pathSession ('/' :: sessionPath session) = sessionPattern session := by
  have whole : '/' :: sessionPath session = "/c/pay/".toList ++ session := rfl
  rw [pathSession, whole, afterPrefix_append]
  rfl

theorem address_rawPath {session : List Char} {mode : SessionMode} {emptyQuery : Bool}
    {fragment : Option (List Char)} (matched : sessionPattern session = some mode) :
    rawPath (address session emptyQuery fragment) = some ('/' :: sessionPath session) := by
  have whole : address session emptyQuery fragment = "https://checkout.stripe.com/".toList ++
      (sessionPath session ++ (queryText emptyQuery ++ hashText fragment)) := by
    unfold address sessionPath
    simp only [List.append_assoc]
  rw [whole, rawPath_checkout, ← List.cons_append]
  refine congrArg some (takeWhile_stop ?_ ?_)
  · intro c member
    rcases List.mem_cons.1 member with rfl | inside
    · decide
    · obtain ⟨_, _, _, noQuery, noHash⟩ := fid_of_path (sessionPath_chars matched c inside)
      simp [noQuery, noHash]
  · intro c first
    cases emptyQuery with
    | true =>
      cases first
      decide
    | false =>
      cases fragment with
      | none => cases first
      | some text =>
        cases first
        decide

theorem address_path_safe {session : List Char} {mode : SessionMode} {emptyQuery : Bool}
    {fragment : Option (List Char)} (matched : sessionPattern session = some mode)
    (fine : ∀ text, fragment = some text → stripeFragmentPattern text = true)
    (none : '%' ∉ address session emptyQuery fragment) :
    hasUnsafeRawPath (address session emptyQuery fragment) = false := by
  have chars := @address_chars session mode emptyQuery fragment matched fine
  have slash := encodedSlash_none (address session emptyQuery fragment) fun c member same =>
    none (same ▸ member)
  have clean : ((address session emptyQuery fragment).any fun c =>
      c == '\\' || c.toNat ≤ 31 || c.toNat == 127) = false := by
    refine List.any_eq_false.2 ?_
    intro c member
    obtain ⟨low, high, backslash⟩ := plainChar_range (chars c member)
    simp only [Bool.or_eq_true, beq_iff_eq, decide_eq_true_eq, not_or]
    exact ⟨⟨backslash, by omega⟩, by omega⟩
  unfold hasUnsafeRawPath
  rw [clean, slash, address_rawPath matched]
  simp only [Bool.or_self, Bool.false_eq_true, if_false]
  refine List.any_eq_false.2 ?_
  intro segment member
  rw [Bool.not_eq_true]
  refine unsafeSegment_none ?_
  intro c inside
  rcases List.mem_cons.1 (segments_chars _ segment member c inside) with rfl | path
  · decide
  · obtain ⟨_, percent, dot, _⟩ := fid_of_path (sessionPath_chars matched c path)
    exact ⟨percent, dot⟩

theorem expectedMode_matching {paymentMode : PaymentMode} {expected : SessionMode}
    (mode : expectedSessionMode paymentMode = some expected) :
    expectedMode (matchingMode paymentMode) = expected := by
  cases paymentMode <;> cases mode <;> rfl

/-- What the browser asks of a text. -/
def SafeText (value : List Char) : Prop :=
  utf16Length value ≤ 2048 ∧ strip scriptSpace value = value ∧
    value.any unsafeUrlChar = false ∧ hasUnsafeRawPath value = false

/-- What the browser asks of the parts of an address. -/
def ExactDestination (value : List Char) (url : Url) (mode : ServiceMode) : Prop :=
  authority value = some "checkout.stripe.com".toList ∧ url.protocol = "https:".toList ∧
    url.host = "checkout.stripe.com".toList ∧ url.username = [] ∧ url.password = [] ∧
    url.search = [] ∧ pathSession url.pathname = some (expectedMode mode) ∧
    (value.contains '#' = true → checkoutFragmentPattern (url.hash.drop 1) = true)

theorem browser_ok_iff {newUrl : List Char → Option Url} {value : List Char} {url : Url}
    {mode : ServiceMode} (read : newUrl value = some url) :
    Browser.validateCheckoutUrl newUrl value mode = .ok value ↔
      SafeText value ∧ ExactDestination value url mode := by
  unfold Browser.validateCheckoutUrl SafeText ExactDestination
  rw [read]
  simp only
  generalize "checkout.stripe.com".toList = host
  generalize "https:".toList = protocol
  split
  · next bad =>
    constructor
    · intro failed
      cases failed
    · rintro ⟨⟨short, blank, chars, path⟩, _⟩
      rcases bad with long | space | wrong | wrong
      · omega
      · exact absurd blank space
      · rw [chars] at wrong
        cases wrong
      · rw [path] at wrong
        cases wrong
  · next good =>
    simp only [not_or, Bool.not_eq_true, not_lt, ne_eq, not_not] at good
    split
    · next bad =>
      constructor
      · intro failed
        cases failed
      · rintro ⟨_, h1, h2, h3, h4, h5, h6, h7, h8⟩
        rcases bad with w | w | w | w | w | w | w | ⟨hash, pattern⟩
        · exact absurd h1 w
        · exact absurd h2 w
        · exact absurd h3 w
        · exact absurd h4 w
        · exact absurd h5 w
        · exact absurd h6 w
        · exact absurd h7 w
        · rw [h8 hash] at pattern
          cases pattern
    · next fits =>
      simp only [not_or, Bool.not_eq_false, ne_eq, not_not, not_and] at fits
      exact iff_of_true rfl ⟨good, fits⟩

theorem address_safe {session : List Char} {mode : SessionMode} {emptyQuery : Bool}
    {fragment : Option (List Char)} (matched : sessionPattern session = some mode)
    (fine : ∀ text, fragment = some text → stripeFragmentPattern text = true)
    (short : (address session emptyQuery fragment).length ≤ 2048)
    (none : '%' ∉ address session emptyQuery fragment) :
    SafeText (address session emptyQuery fragment) := by
  have chars := @address_chars session mode emptyQuery fragment matched fine
  refine ⟨?_, ?_, ?_, address_path_safe matched fine none⟩
  · rw [utf16Length_eq fun c member => (plainChar_range (chars c member)).2.1]
    exact short
  · refine strip_eq ?_
    intro c member
    obtain ⟨low, high, _⟩ := plainChar_range (chars c member)
    simp only [scriptSpace, Bool.or_eq_false_iff, Bool.and_eq_false_iff,
      decide_eq_false_iff_not, beq_eq_false_iff_ne]
    omega
  · refine List.any_eq_false.2 ?_
    intro c member
    obtain ⟨low, high, backslash⟩ := plainChar_range (chars c member)
    simp only [unsafeUrlChar, Bool.or_eq_true, beq_iff_eq, decide_eq_true_eq, not_or]
    exact ⟨⟨backslash, by omega⟩, by omega⟩

theorem address_authority (session : List Char) (emptyQuery : Bool)
    (fragment : Option (List Char)) :
    authority (address session emptyQuery fragment) = some "checkout.stripe.com".toList := by
  have whole : address session emptyQuery fragment = "https://checkout.stripe.com/".toList ++
      (sessionPath session ++ (queryText emptyQuery ++ hashText fragment)) := by
    unfold address sessionPath
    simp only [List.append_assoc]
  rw [whole, authority_checkout]

theorem address_hash {session : List Char} {mode : SessionMode} {emptyQuery : Bool}
    {fragment : Option (List Char)} (matched : sessionPattern session = some mode) :
    (address session emptyQuery fragment).contains '#' = true ↔ fragment ≠ none := by
  rw [List.contains_iff_mem]
  constructor
  · rintro inside rfl
    rcases List.mem_append.1 inside with before | none
    · rcases List.mem_append.1 before with front | query
      · rcases List.mem_append.1 front with origin | path
        · have fixed : '#' ∉ "https://checkout.stripe.com/".toList := by decide
          exact fixed origin
        · exact (fid_of_path (sessionPath_chars matched '#' path)).2.2.2.2 rfl
      · cases emptyQuery with
        | false => exact absurd query List.not_mem_nil
        | true => exact absurd query (by decide)
    · exact absurd none List.not_mem_nil
  · intro some
    cases fragment with
    | none => exact absurd rfl some
    | some text => exact List.mem_append_right _ List.mem_cons_self

/-- An address that the service accepts is opened by the browser exactly if it has no percent
sign in it. -/
theorem browser_accepts_iff {newUrl : List Char → Option Url} (reads : ReadsPlainUrls newUrl)
    {netlocRefused : List Char → Bool} {value session : List Char} {paymentMode : PaymentMode}
    (accepted : Service.validateCheckoutUrl netlocRefused value session paymentMode = .ok ()) :
    Browser.validateCheckoutUrl newUrl value (matchingMode paymentMode) = .ok value ↔
      '%' ∉ value := by
  obtain ⟨expected, emptyQuery, fragment, mode, rfl, short, matched, fine⟩ :=
    service_accepts accepted
  have read := @address_read newUrl reads session expected emptyQuery fragment matched fine
  rw [browser_ok_iff read]
  constructor
  · rintro ⟨_, _, _, _, _, _, _, _, pattern⟩ percent
    obtain ⟨text, rfl, inside⟩ := (percent_in_fragment matched).1 percent
    have fits := pattern ((address_hash matched).2 nofun)
    exact (checkoutFragment_iff (fine text rfl)).1 fits inside
  · intro none
    refine ⟨address_safe matched fine short none, address_authority session emptyQuery fragment,
      rfl, rfl, rfl, rfl, rfl, ?_, ?_⟩
    · rw [pathSession_eq, matched, expectedMode_matching mode]
    · intro hash
      cases fragment with
      | none => exact absurd rfl ((address_hash matched).1 hash)
      | some text =>
        exact (checkoutFragment_iff (fine text rfl)).2 fun inside =>
          none ((percent_in_fragment matched).2 ⟨text, rfl, inside⟩)

/-! ## A reader of plain addresses -/

def plainUrl (value : List Char) : Option Url :=
  (afterPrefix "https://".toList value).map fun rest =>
    let host := rest.takeWhile fun c => !delimiter c
    let parts := partitionAt '#' (rest.dropWhile fun c => !delimiter c)
    let route := partitionAt '?' parts.1
    ⟨"https:".toList, host, [], [], route.1, if route.2 = [] then [] else '?' :: route.2,
      if parts.2 = [] then [] else '#' :: parts.2⟩

theorem partitionAt_none {mark : Char} : ∀ {text : List Char}, (∀ c ∈ text, c ≠ mark) →
    partitionAt mark text = (text, []) := by
  intro text
  induction text with
  | nil => exact fun _ => rfl
  | cons c rest ih =>
    intro none
    have later := ih fun d member => none d (List.mem_cons_of_mem _ member)
    have differs := none c List.mem_cons_self
    simp only [partitionAt, Prod.mk.injEq] at later ⊢
    simpa [differs] using later

theorem partitionAt_found {mark : Char} {after : List Char} : ∀ {before : List Char},
    (∀ c ∈ before, c ≠ mark) → partitionAt mark (before ++ mark :: after) = (before, after) := by
  intro before
  induction before with
  | nil =>
    intro _
    simp [partitionAt]
  | cons c rest ih =>
    intro none
    have later := ih fun d member => none d (List.mem_cons_of_mem _ member)
    have differs := none c List.mem_cons_self
    simp only [partitionAt, Prod.mk.injEq] at later ⊢
    simpa [differs] using later

theorem plainUrl_reads : ReadsPlainUrls plainUrl := by
  intro path emptyQuery fragment plain fine
  have chars : ∀ c ∈ '/' :: path, c ≠ '?' ∧ c ≠ '#' := by
    intro c member
    rcases List.mem_cons.1 member with rfl | inside
    · decide
    · have held := List.all_eq_true.1 plain c inside
      constructor
      · rintro rfl
        revert held
        decide
      · rintro rfl
        revert held
        decide
  have whole : "https://checkout.stripe.com/".toList ++ path ++ queryText emptyQuery ++
      hashText fragment = "https://checkout.stripe.com/".toList ++
        (path ++ queryText emptyQuery ++ hashText fragment) := by
    simp only [List.append_assoc]
  have read : ∀ tail : List Char, plainUrl ("https://checkout.stripe.com/".toList ++ tail) =
      some ⟨"https:".toList, "checkout.stripe.com".toList, [], [],
        (partitionAt '?' (partitionAt '#' ('/' :: tail)).1).1,
        if (partitionAt '?' (partitionAt '#' ('/' :: tail)).1).2 = [] then []
          else '?' :: (partitionAt '?' (partitionAt '#' ('/' :: tail)).1).2,
        if (partitionAt '#' ('/' :: tail)).2 = [] then []
          else '#' :: (partitionAt '#' ('/' :: tail)).2⟩ := fun _ => rfl
  rw [whole, read]
  have noHash : ∀ c ∈ '/' :: path ++ queryText emptyQuery, c ≠ '#' := by
    intro c member
    rcases List.mem_append.1 member with inside | query
    · exact (chars c inside).2
    · cases emptyQuery with
      | false => exact absurd query List.not_mem_nil
      | true =>
        rw [List.mem_singleton.1 query]
        decide
  have route : partitionAt '?' ('/' :: path ++ queryText emptyQuery) = ('/' :: path, []) := by
    cases emptyQuery with
    | false =>
      have same : '/' :: path ++ queryText false = '/' :: path := List.append_nil _
      rw [same]
      exact partitionAt_none fun c member => (chars c member).1
    | true => exact partitionAt_found fun c member => (chars c member).1
  cases fragment with
  | none =>
    have parts : partitionAt '#' ('/' :: (path ++ queryText emptyQuery ++ hashText none)) =
        ('/' :: path ++ queryText emptyQuery, []) := by
      rw [hashText, List.append_nil]
      exact partitionAt_none noHash
    rw [parts]
    simp only
    rw [route]
    rfl
  | some text =>
    have parts : partitionAt '#' ('/' :: (path ++ queryText emptyQuery ++
        hashText (some text))) = ('/' :: path ++ queryText emptyQuery, text) :=
      partitionAt_found noHash
    rw [parts]
    simp only
    rw [route, if_pos rfl, if_neg (fine text rfl).1]
    rfl

def plainAddress : List Char :=
  "https://checkout.stripe.com/c/pay/cs_test_a1#fidkdWxOYHwnPyd1blpxYHZx".toList

theorem plain_address_opens :
    Browser.validateCheckoutUrl plainUrl plainAddress .sandbox = .ok plainAddress := by
  have accepted : Service.validateCheckoutUrl (fun _ => true) plainAddress
      "cs_test_a1".toList .stripeTest = .ok () := by decide
  exact (browser_accepts_iff plainUrl_reads accepted).2 (by decide)

/-- An escape of the kind that a live session has. -/
def escapedAddress : List Char :=
  "https://checkout.stripe.com/c/pay/cs_live_a1#fidkdWxOYHwnPyd1blpx%2BHZx".toList

theorem escaped_address_is_blocked :
    Service.validateCheckoutUrl (fun _ => true) escapedAddress "cs_live_a1".toList
        .stripeLive = .ok () ∧
      ReadsPlainUrls plainUrl ∧
      Browser.validateCheckoutUrl plainUrl escapedAddress .production = .error blockedUrl :=
  ⟨by decide, plainUrl_reads, by decide⟩

end CheckoutUrls
