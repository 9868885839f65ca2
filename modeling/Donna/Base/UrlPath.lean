import Donna.Base.PercentCoding

/-! The URL parser on inputs that start at a path, for a base with an http scheme: the path state
with its dot segments, and what follows it.  The path state takes plain characters as they are, and
an encoded text is no dot segment unless the text is. -/

namespace Donna

structure Url where
  scheme : String
  /-- The serialised host and port. -/
  host : String
  /-- A user name and password in their serialisation, or nothing. -/
  credentials : String := ""
  path : List String
  query : Option String := none
  fragment : Option String := none
  deriving DecidableEq

namespace Url

open PercentCoding

/-- Controls and everything behind ASCII. -/
def c0ControlSet (c : Char) : Bool := c.toNat ≤ 0x1F || 0x7E < c.toNat

def fragmentSet (c : Char) : Bool :=
  c0ControlSet c || c == ' ' || c == '"' || c == '<' || c == '>' || c == '\x60'

def querySet (c : Char) : Bool :=
  c0ControlSet c || c == ' ' || c == '"' || c == '#' || c == '<' || c == '>'

/-- The query set of a special URL. -/
def specialQuerySet (c : Char) : Bool := querySet c || c == '\x27'

def pathSet (c : Char) : Bool :=
  querySet c || c == '?' || c == '^' || c == '\x60' || c == '\x7b' || c == '\x7d'

/-- The spellings of a dot. -/
def dotForms : List (List Char) := [['.'], ['%', '2', 'e'], ['%', '2', 'E']]

def isSingleDot (segment : List Char) : Bool := decide (segment ∈ dotForms)

def isDoubleDot (segment : List Char) : Bool :=
  decide (segment ∈ dotForms.flatMap fun first => dotForms.map fun second => first ++ second)

/-- The path after a segment, which ends at a slash or at the end of the path. -/
def closeSegment (path : List String) (segment : List Char) (slash : Bool) : List String :=
  if isDoubleDot segment then (if slash then path.dropLast else path.dropLast ++ [""])
  else if isSingleDot segment then (if slash then path else path ++ [""])
  else path ++ [String.ofList segment]

/-- What the parser reads from the path on. -/
structure PathRest where
  path : List String
  query : Option String := none
  fragment : Option String := none

def fragmentState (path : List String) (query : Option String) (rest : List Char) : PathRest where
  path := path
  query := query
  fragment := some (String.ofList (encode (fun c => !fragmentSet c) rest))

def queryState (path : List String) (rest : List Char) : PathRest :=
  let query := String.ofList (encode (fun c => !specialQuerySet c) (rest.takeWhile (· != '#')))
  match rest.dropWhile (· != '#') with
  | [] => { path := path, query := some query }
  | _ :: rest => fragmentState path (some query) rest

/-- The path state of a special URL, with the segment read so far. -/
def pathState (path : List String) (segment : List Char) : List Char → PathRest
  | [] => { path := closeSegment path segment false }
  | c :: rest =>
    if c = '/' ∨ c = '\\' then pathState (closeSegment path segment true) [] rest
    else if c = '?' then queryState (closeSegment path segment false) rest
    else if c = '#' then fragmentState (closeSegment path segment false) none rest
    else pathState path (segment ++ encodeChar (fun c => !pathSet c) c) rest

def isC0ControlOrSpace (c : Char) : Bool := c.toNat ≤ 0x20

def isTabOrNewline (c : Char) : Bool := c == '\t' || c == '\n' || c == '\r'

/-- An input without the characters that the parser ignores. -/
def significant (input : List Char) : List Char :=
  (((input.dropWhile isC0ControlOrSpace).reverse.dropWhile isC0ControlOrSpace).reverse).filter
    fun c => !isTabOrNewline c

/-- `new URL(input, base)`.  `elsewhere` is the parser on inputs that do not start at a path: those
with a scheme, a host, a relative path or nothing. -/
def parse (elsewhere : List Char → Url → Option Url) (input : String) (base : Url) : Option Url :=
  match significant input.toList with
  | '/' :: rest =>
    if rest.head? = some '/' ∨ rest.head? = some '\\' then elsewhere ('/' :: rest) base
    else
      let read := pathState [] [] rest
      some { base with path := read.path, query := read.query, fragment := read.fragment }
  | chars => elsewhere chars base

/-- The serialised origin of a URL with an http scheme. -/
def origin (url : Url) : String := url.scheme ++ "://" ++ url.host

def pathText : List String → String
  | [] => ""
  | segment :: path => "/" ++ segment ++ pathText path

def pathname (url : Url) : String := pathText url.path

def href (url : Url) : String :=
  url.scheme ++ "://" ++ url.credentials ++ url.host ++ url.pathname ++
    ((url.query.map fun query => "?" ++ query).getD "") ++
    (url.fragment.map fun fragment => "#" ++ fragment).getD ""

/-- URLs that differ only in their paths are written differently where the paths are. -/
theorem href_path_inj {url : Url} {path other : List String}
    (same : ({ url with path := path, query := none, fragment := none } : Url).href =
      ({ url with path := other, query := none, fragment := none } : Url).href) :
    pathText path = pathText other := by
  simpa [href, pathname, String.append_assoc] using same

/-! ### Segments -/

/-- A character that the path state takes as it is. -/
def isPlain (c : Char) : Bool := !pathSet c && c != '/' && c != '\\' && c != '#'

/-- A plain character that the parser does not strip either. -/
def isVisible (c : Char) : Bool := isPlain c && decide (0x20 < c.toNat)

theorem isPlain_of_isVisible {c : Char} (visible : isVisible c = true) : isPlain c = true :=
  (Bool.and_eq_true_iff.mp visible).1

theorem gt_of_isVisible {c : Char} (visible : isVisible c = true) : 0x20 < c.toNat :=
  of_decide_eq_true (Bool.and_eq_true_iff.mp visible).2

/-- The parser strips nothing from an input without controls and spaces. -/
theorem significant_of_gt {chars : List Char} (visible : ∀ c ∈ chars, 0x20 < c.toNat) :
    significant chars = chars := by
  have kept : ∀ text : List Char, (∀ c ∈ text, 0x20 < c.toNat) →
      text.dropWhile isC0ControlOrSpace = text := by
    intro text shown
    cases text with
    | nil => rfl
    | cons c text =>
      have first := shown c List.mem_cons_self
      exact List.dropWhile_cons_of_neg (by simp [isC0ControlOrSpace]; omega)
  have inner : ∀ c ∈ chars.reverse, 0x20 < c.toNat :=
    fun c present => visible c (List.mem_reverse.mp present)
  rw [significant, kept chars visible, kept chars.reverse inner, List.reverse_reverse]
  refine List.filter_eq_self.mpr fun c present => ?_
  have shown := visible c present
  rw [Bool.not_eq_true', Bool.eq_false_iff, isTabOrNewline]
  intro blank
  simp only [Bool.or_eq_true, beq_iff_eq] at blank
  rcases blank with (rfl | rfl) | rfl
  · exact absurd shown (by decide)
  · exact absurd shown (by decide)
  · exact absurd shown (by decide)

theorem pathState_plain {chars : List Char} (plain : ∀ c ∈ chars, isPlain c = true)
    (path : List String) (segment rest : List Char) :
    pathState path segment (chars ++ rest) = pathState path (segment ++ chars) rest := by
  induction chars generalizing segment with
  | nil => simp
  | cons c chars ih =>
    have here := plain c List.mem_cons_self
    simp only [isPlain, Bool.and_eq_true, Bool.not_eq_true', bne_iff_ne] at here
    obtain ⟨⟨⟨kept, slash⟩, backslash⟩, hash⟩ := here
    have question : c ≠ '?' := fun same => by simp [same, pathSet] at kept
    have encoded : encodeChar (fun c => !pathSet c) c = [c] := if_pos (by simp [kept])
    rw [List.cons_append, pathState, if_neg (by simp [slash, backslash]), if_neg question,
      if_neg hash, encoded, ih fun other later => plain other (List.mem_cons_of_mem c later)]
    simp

/-- Plain characters up to the end of the input are the last segment. -/
theorem pathState_last {chars : List Char} (plain : ∀ c ∈ chars, isPlain c = true)
    (path : List String) :
    pathState path [] chars = { path := closeSegment path chars false } := by
  have last := pathState_plain plain path [] []
  rw [List.append_nil, List.nil_append] at last
  exact last

theorem pathState_slash (path : List String) (segment rest : List Char) :
    pathState path segment ('/' :: rest) = pathState (closeSegment path segment true) [] rest :=
  if_pos (.inl rfl)

theorem closeSegment_of_not_dots {segment : List Char} (single : isSingleDot segment = false)
    (double : isDoubleDot segment = false) (path : List String) (slash : Bool) :
    closeSegment path segment slash = path ++ [String.ofList segment] := by
  simp [closeSegment, single, double]

theorem decode_of_isSingleDot {segment : List Char} (single : isSingleDot segment = true) :
    decode segment = utf8 ['.'] := by
  have forms : ∀ form ∈ dotForms, decode form = utf8 ['.'] := by decide
  exact forms segment (of_decide_eq_true single)

theorem decode_of_isDoubleDot {segment : List Char} (double : isDoubleDot segment = true) :
    decode segment = utf8 ['.', '.'] := by
  have forms : ∀ form ∈ dotForms.flatMap fun first => dotForms.map fun second => first ++ second,
      decode form = utf8 ['.', '.'] := by decide
  exact forms segment (of_decide_eq_true double)

/-- An encoded text is a dot segment only where the text is one. -/
theorem not_dots_of_encode {kept : Char → Bool} (escaped : kept '%' = false) {text : List Char}
    (single : text ≠ ['.']) (double : text ≠ ['.', '.']) :
    isSingleDot (encode kept text) = false ∧ isDoubleDot (encode kept text) = false := by
  constructor
  · refine Bool.eq_false_iff.mpr fun dot => single (utf8_injective ?_)
    rw [← decode_encode escaped, decode_of_isSingleDot dot]
  · refine Bool.eq_false_iff.mpr fun dots => double (utf8_injective ?_)
    rw [← decode_encode escaped, decode_of_isDoubleDot dots]

end Url

end Donna
