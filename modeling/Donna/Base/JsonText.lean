import Mathlib.Data.List.Basic
import Mathlib.Tactic.Common

/-! JSON trees and their text.  A tree is written without white space, the members of an object in
the order in which it lists them, over a `Lexis` that writes strings and numbers.  The text of a
tree is uniquely readable before any delimiter, so no two trees have one text. -/

namespace Donna

/-- A JSON tree over strings `σ` and numbers `ν`.  An array has a first slot and more slots, each
with an item or empty: the empty array is the array of one empty slot, since both are written `[]`,
and an array with another empty slot has a text that JSON does not allow, such as `[,]`. -/
inductive Json (σ ν : Type)
  | null
  | boolean (b : Bool)
  | number (n : ν)
  | string (s : σ)
  | array (first : Option (Json σ ν)) (rest : List (Option (Json σ ν)))
  | object (members : List (σ × Json σ ν))

namespace Json

variable {σ ν α : Type}

/-! ### Strings and numbers -/

/-- What may stand between the quotes of a string: no quote but an escaped one. -/
inductive StringBody : List Char → Prop
  | nil : StringBody []
  | plain {c : Char} {rest : List Char} (noQuote : c ≠ '"') (noEscape : c ≠ '\\')
      (body : StringBody rest) : StringBody (c :: rest)
  | escape (c : Char) {rest : List Char} (body : StringBody rest) : StringBody ('\\' :: c :: rest)

/-- The characters of a number. -/
def numberAlphabet : List Char :=
  ['0', '1', '2', '3', '4', '5', '6', '7', '8', '9', '-', '+', '.', 'e', 'E']

/-- How strings and numbers are written. -/
structure Lexis (σ ν : Type) where
  quote : σ → String
  number : ν → String
  quote_injective : Function.Injective quote
  quote_grammar : ∀ s, ∃ body, (quote s).toList = '"' :: (body ++ ['"']) ∧ StringBody body
  number_injective : Function.Injective number
  number_nonempty : ∀ n, (number n).toList ≠ []
  number_grammar : ∀ n, ∀ c ∈ (number n).toList, c ∈ numberAlphabet

/-- A string ends at its first quote that is not escaped. -/
theorem StringBody.unique {body other rest rest' : List Char} (left : StringBody body)
    (right : StringBody other) (same : body ++ '"' :: rest = other ++ '"' :: rest') :
    body = other ∧ rest = rest' := by
  induction left generalizing other with
  | nil =>
    cases right with
    | nil => exact ⟨rfl, (List.cons.inj same).2⟩
    | plain noQuote => exact absurd (List.cons.inj same).1.symm noQuote
    | escape => exact absurd (List.cons.inj same).1 (by decide)
  | plain noQuote noEscape _ ih =>
    cases right with
    | nil => exact absurd (List.cons.inj same).1 noQuote
    | plain _ _ right =>
      obtain ⟨head, tail⟩ := List.cons.inj same
      obtain ⟨rfl, hRest⟩ := ih right tail
      exact ⟨by rw [head], hRest⟩
    | escape => exact absurd (List.cons.inj same).1 noEscape
  | escape c _ ih =>
    cases right with
    | nil => exact absurd (List.cons.inj same).1 (by decide)
    | plain _ noEscape => exact absurd (List.cons.inj same).1.symm noEscape
    | escape c' right =>
      obtain ⟨head, tail⟩ := List.cons.inj (List.cons.inj same).2
      obtain ⟨rfl, hRest⟩ := ih right tail
      exact ⟨by rw [head], hRest⟩

theorem Lexis.quote_unique (lexis : Lexis σ ν) {s t : σ} {rest rest' : List Char}
    (same : (lexis.quote s).toList ++ rest = (lexis.quote t).toList ++ rest') :
    s = t ∧ rest = rest' := by
  obtain ⟨body, hBody, left⟩ := lexis.quote_grammar s
  obtain ⟨other, hOther, right⟩ := lexis.quote_grammar t
  simp only [hBody, hOther, List.cons_append, List.append_assoc, List.nil_append,
    List.cons.injEq, true_and] at same
  obtain ⟨rfl, hRest⟩ := left.unique right same
  refine ⟨lexis.quote_injective (String.toList_inj.mp ?_), hRest⟩
  rw [hBody, hOther]

/-- What can follow a value in a text. -/
def Ends (rest : List Char) : Prop :=
  ∀ c ∈ rest.head?, c = ',' ∨ c = ']' ∨ c = '}'

theorem ends_nil : Ends [] := by simp [Ends]

theorem ends_cons {c : Char} (rest : List Char) (h : c = ',' ∨ c = ']' ∨ c = '}') :
    Ends (c :: rest) := by
  simpa [Ends] using h

theorem Ends.takeWhile {rest : List Char} (ends : Ends rest) :
    rest.takeWhile (fun c => c ∈ numberAlphabet) = [] := by
  cases rest with
  | nil => rfl
  | cons c rest =>
    rw [List.takeWhile_cons_of_neg]
    rcases ends c (by simp) with rfl | rfl | rfl <;> decide

/-- A number ends before its first character that is not a number's. -/
theorem Lexis.number_unique (lexis : Lexis σ ν) {m n : ν} {rest rest' : List Char}
    (ends : Ends rest) (ends' : Ends rest')
    (same : (lexis.number m).toList ++ rest = (lexis.number n).toList ++ rest') :
    m = n ∧ rest = rest' := by
  have digits : ∀ (k : ν) {rest : List Char}, Ends rest →
      ((lexis.number k).toList ++ rest).takeWhile (fun c => c ∈ numberAlphabet) =
        (lexis.number k).toList := by
    intro k rest ends
    rw [List.takeWhile_append_of_pos (by simpa using lexis.number_grammar k), ends.takeWhile,
      List.append_nil]
  have text : (lexis.number m).toList = (lexis.number n).toList := by
    rw [← digits m ends, same, digits n ends']
  rw [text] at same
  exact ⟨lexis.number_injective (String.toList_inj.mp text), List.append_cancel_left same⟩

/-! ### Trees -/

/-- The array whose slots are joined with commas: no slot at all reads as one empty slot. -/
def ofSlots : List (Option (Json σ ν)) → Json σ ν
  | [] => .array none []
  | first :: rest => .array first rest

/-- The slots that an array is written with. -/
def written : List (Option α) → List (Option α)
  | [] => [none]
  | first :: rest => first :: rest

theorem written_map {β : Type} (f : α → β) (slots : List (Option α)) :
    written (slots.map (Option.map f)) = (written slots).map (Option.map f) := by
  cases slots <;> rfl

theorem ofSlots_inj {left right : List (Option (Json σ ν))} :
    ofSlots left = ofSlots right ↔ written left = written right := by
  cases left <;> cases right <;> simp [ofSlots, written]

/-- Induction on a tree, with the motive at every item and at every member's value. -/
@[elab_as_elim]
theorem induction {motive : Json σ ν → Prop} (null : motive .null)
    (boolean : ∀ b, motive (.boolean b)) (number : ∀ n, motive (.number n))
    (string : ∀ s, motive (.string s))
    (array : ∀ first rest, (∀ item, some item ∈ first :: rest → motive item) →
      motive (.array first rest))
    (object : ∀ members, (∀ member ∈ members, motive member.2) → motive (.object members))
    (tree : Json σ ν) : motive tree :=
  @Json.rec σ ν motive (fun slot => ∀ item, some item = slot → motive item)
    (fun slots => ∀ item, some item ∈ slots → motive item)
    (fun members => ∀ member ∈ members, motive member.2) (fun member => motive member.2)
    null boolean number string
    (fun first rest atFirst atRest => array first rest fun item present =>
      (List.mem_cons.mp present).elim (atFirst item) (atRest item))
    object
    (fun _ filled => absurd filled (Option.some_ne_none _))
    (fun _ tree _ same => Option.some.inj same ▸ tree)
    (fun _ present => absurd present List.not_mem_nil)
    (fun _ _ first rest item present => (List.mem_cons.mp present).elim (first item) (rest item))
    (List.forall_mem_nil _) (fun _ _ first rest => List.forall_mem_cons.mpr ⟨first, rest⟩)
    (fun _ _ value => value) tree

section Text

variable (lexis : Lexis σ ν)

mutual

def text : Json σ ν → List Char
  | .null => "null".toList
  | .boolean b => (if b then "true" else "false").toList
  | .number n => (lexis.number n).toList
  | .string s => (lexis.quote s).toList
  | .array first rest => '[' :: ([','].intercalate (slotText first :: slotTexts rest) ++ [']'])
  | .object members => '{' :: ([','].intercalate (memberTexts members) ++ ['}'])

def slotText : Option (Json σ ν) → List Char
  | none => []
  | some item => text item

def slotTexts : List (Option (Json σ ν)) → List (List Char)
  | [] => []
  | slot :: rest => slotText slot :: slotTexts rest

def memberTexts : List (σ × Json σ ν) → List (List Char)
  | [] => []
  | (key, value) :: rest => ((lexis.quote key).toList ++ ':' :: text value) :: memberTexts rest

end

def memberText (member : σ × Json σ ν) : List Char :=
  (lexis.quote member.1).toList ++ ':' :: text lexis member.2

theorem slotTexts_eq (slots : List (Option (Json σ ν))) :
    slotTexts lexis slots = slots.map (slotText lexis) := by
  induction slots with
  | nil => rfl
  | cons slot rest ih => rw [slotTexts, ih, List.map_cons]

theorem text_ofSlots (slots : List (Option (Json σ ν))) :
    text lexis (ofSlots slots) =
      '[' :: ([','].intercalate (slots.map (slotText lexis)) ++ [']']) := by
  cases slots with
  | nil => rfl
  | cons first rest => rw [ofSlots, text, slotTexts_eq, List.map_cons]

theorem memberTexts_eq (members : List (σ × Json σ ν)) :
    memberTexts lexis members = members.map (memberText lexis) := by
  induction members with
  | nil => rfl
  | cons member rest ih =>
    rw [memberTexts, ih, List.map_cons]
    rfl

end Text

/-! ### Unique readability -/

/-- `a` is read off any text that starts with its code and goes on with a delimiter. -/
def ReadableAt (code : α → List Char) (a : α) : Prop :=
  ∀ b rest rest', Ends rest → Ends rest' → code a ++ rest = code b ++ rest' → a = b ∧ rest = rest'

theorem intercalate_cons (code : α → List Char) (first : α) (items : List α)
    (close : List Char) :
    [','].intercalate ((first :: items).map code) ++ close =
      code first ++ if items = [] then close
        else ',' :: ([','].intercalate (items.map code) ++ close) := by
  cases items <;> simp [List.intercalate]

/-- What follows an item in a comma-separated list. -/
theorem ends_intercalate (code : α → List Char) {close : Char}
    (closes : close = ']' ∨ close = '}') (items : List α) (rest : List Char) :
    Ends (if items = [] then close :: rest
      else ',' :: ([','].intercalate (items.map code) ++ close :: rest)) := by
  split
  · exact ends_cons rest (.inr closes)
  · exact ends_cons _ (.inl rfl)

/-- A comma-separated list with an item is read up to its closing character. -/
theorem intercalate_cons_unique {code : α → List Char} {close : Char}
    (closes : close = ']' ∨ close = '}') {first other : α} {items others : List α}
    (readable : ∀ item ∈ first :: items, ReadableAt code item) {rest rest' : List Char}
    (same : [','].intercalate ((first :: items).map code) ++ close :: rest =
      [','].intercalate ((other :: others).map code) ++ close :: rest') :
    first :: items = other :: others ∧ rest = rest' := by
  have notComma : close ≠ ',' := by rcases closes with rfl | rfl <;> decide
  induction items generalizing first other others with
  | nil =>
    rw [intercalate_cons code first, intercalate_cons code other] at same
    obtain ⟨rfl, tails⟩ := readable first List.mem_cons_self other _ _
      (ends_intercalate code closes _ rest) (ends_intercalate code closes _ rest') same
    cases others with
    | nil => exact ⟨rfl, (List.cons.inj tails).2⟩
    | cons => exact absurd (List.cons.inj tails).1 notComma
  | cons next items ih =>
    rw [intercalate_cons code first, intercalate_cons code other] at same
    obtain ⟨rfl, tails⟩ := readable first List.mem_cons_self other _ _
      (ends_intercalate code closes _ rest) (ends_intercalate code closes _ rest') same
    cases others with
    | nil => exact absurd (List.cons.inj tails).1.symm notComma
    | cons second others =>
      have inner : ∀ item ∈ next :: items, ReadableAt code item :=
        fun item present => readable item (List.mem_cons_of_mem _ present)
      obtain ⟨later, hRest⟩ := ih inner (List.cons.inj tails).2
      exact ⟨by rw [later], hRest⟩

/-- A comma-separated list is read up to its closing character where this starts no item. -/
theorem intercalate_unique {code : α → List Char} {close : Char}
    (closes : close = ']' ∨ close = '}')
    (starts : ∀ a rest, (code a ++ rest).head? ≠ some close) {items : List α}
    (readable : ∀ item ∈ items, ReadableAt code item) {others : List α} {rest rest' : List Char}
    (same : [','].intercalate (items.map code) ++ close :: rest =
      [','].intercalate (others.map code) ++ close :: rest') :
    items = others ∧ rest = rest' := by
  cases items with
  | nil =>
    cases others with
    | nil => exact ⟨rfl, (List.cons.inj same).2⟩
    | cons other others =>
      rw [intercalate_cons] at same
      exact absurd (congrArg List.head? same.symm) (starts other _)
  | cons item items =>
    cases others with
    | nil =>
      rw [intercalate_cons] at same
      exact absurd (congrArg List.head? same) (starts item _)
    | cons other others => exact intercalate_cons_unique closes readable same

/-! Each tree is read by its first character. -/

/-- What a tree is, apart from what it holds. -/
inductive Kind
  | null
  | boolean (b : Bool)
  | number
  | string
  | array
  | object
  deriving DecidableEq

def kind : Json σ ν → Kind
  | .null => .null
  | .boolean b => .boolean b
  | .number _ => .number
  | .string _ => .string
  | .array _ _ => .array
  | .object _ => .object

/-- The kind of the tree whose text starts with the character, where there is one. -/
def kindOf (c : Char) : Option Kind :=
  if c = 'n' then some .null
  else if c = 't' then some (.boolean true)
  else if c = 'f' then some (.boolean false)
  else if c = '"' then some .string
  else if c = '[' then some .array
  else if c = '{' then some .object
  else if c ∈ numberAlphabet then some .number
  else none

theorem kindOf_number : ∀ c ∈ numberAlphabet, kindOf c = some .number := by
  simp [numberAlphabet, kindOf]

theorem kindOf_text (lexis : Lexis σ ν) (tree : Json σ ν) (rest : List Char) :
    (text lexis tree ++ rest).head?.bind kindOf = some tree.kind := by
  cases tree with
  | null => rfl
  | boolean b => cases b <;> rfl
  | number n =>
    obtain ⟨c, digits, hText⟩ := List.exists_cons_of_ne_nil (lexis.number_nonempty n)
    simp only [text, hText, List.cons_append, List.head?_cons, Option.bind_some, kind]
    exact kindOf_number c (lexis.number_grammar n c (by simp [hText]))
  | string s =>
    obtain ⟨body, hText, -⟩ := lexis.quote_grammar s
    simp only [text, hText, List.cons_append, List.head?_cons, Option.bind_some]
    rfl
  | array first rest => rfl
  | object members => rfl

/-- A delimiter starts no tree. -/
theorem Ends.ne_text (lexis : Lexis σ ν) {rest : List Char} (ends : Ends rest) (tree : Json σ ν)
    (rest' : List Char) : rest ≠ text lexis tree ++ rest' := by
  rintro rfl
  have known := kindOf_text lexis tree rest'
  obtain ⟨c, first, kind⟩ := Option.bind_eq_some_iff.mp known
  rcases ends c first with rfl | rfl | rfl <;> cases kind

/-- A slot is read where its item is. -/
theorem slotText_readable (lexis : Lexis σ ν) {slot : Option (Json σ ν)}
    (inner : ∀ item, some item = slot → ReadableAt (text lexis) item) :
    ReadableAt (slotText lexis) slot := by
  intro other rest rest' ends ends' same
  cases slot with
  | none =>
    cases other with
    | none => exact ⟨rfl, same⟩
    | some item => exact absurd same (ends.ne_text lexis item rest')
  | some item =>
    cases other with
    | none => exact absurd same.symm (ends'.ne_text lexis item rest)
    | some item' =>
      obtain ⟨rfl, hRest⟩ := inner item rfl item' rest rest' ends ends' same
      exact ⟨rfl, hRest⟩

theorem memberText_starts (lexis : Lexis σ ν) (member : σ × Json σ ν) (rest : List Char) :
    (memberText lexis member ++ rest).head? ≠ some '}' := by
  obtain ⟨body, hText, -⟩ := lexis.quote_grammar member.1
  simp [memberText, hText]

/-- A member is read as its key, the colon and its value. -/
theorem memberText_readable (lexis : Lexis σ ν) {member : σ × Json σ ν}
    (value : ReadableAt (text lexis) member.2) : ReadableAt (memberText lexis) member := by
  rintro ⟨key, other⟩ rest rest' ends ends' same
  simp only [memberText, List.append_assoc] at same
  obtain ⟨hKey, hTail⟩ := lexis.quote_unique same
  obtain ⟨hValue, hRest⟩ := value other rest rest' ends ends' (List.cons.inj hTail).2
  exact ⟨Prod.ext hKey hValue, hRest⟩

theorem kind_eq_of_text {lexis : Lexis σ ν} {tree other : Json σ ν} {rest rest' : List Char}
    (same : text lexis tree ++ rest = text lexis other ++ rest') : tree.kind = other.kind := by
  have left := kindOf_text lexis tree rest
  rw [same, kindOf_text lexis other rest'] at left
  exact (Option.some.inj left).symm

/-- The text of a tree is read in one way before any delimiter. -/
theorem text_readable (lexis : Lexis σ ν) (tree : Json σ ν) : ReadableAt (text lexis) tree := by
  induction tree using induction with
  | null =>
    intro other rest rest' _ _ same
    have kinds := kind_eq_of_text same
    obtain rfl : other = .null := by cases other <;> first | rfl | cases kinds
    exact ⟨rfl, List.append_cancel_left same⟩
  | boolean b =>
    intro other rest rest' _ _ same
    have kinds := kind_eq_of_text same
    obtain rfl : other = .boolean b := by cases other <;> cases kinds; rfl
    exact ⟨rfl, List.append_cancel_left same⟩
  | number n =>
    intro other rest rest' ends ends' same
    have kinds := kind_eq_of_text same
    obtain ⟨m, rfl⟩ : ∃ m, other = .number m := by
      cases other <;> first | exact ⟨_, rfl⟩ | cases kinds
    obtain ⟨rfl, hRest⟩ := lexis.number_unique ends ends' same
    exact ⟨rfl, hRest⟩
  | string s =>
    intro other rest rest' _ _ same
    have kinds := kind_eq_of_text same
    obtain ⟨t, rfl⟩ : ∃ t, other = .string t := by
      cases other <;> first | exact ⟨_, rfl⟩ | cases kinds
    obtain ⟨rfl, hRest⟩ := lexis.quote_unique same
    exact ⟨rfl, hRest⟩
  | array first items ih =>
    intro other rest rest' _ _ same
    have kinds := kind_eq_of_text same
    obtain ⟨first', others, rfl⟩ : ∃ first' others, other = .array first' others := by
      cases other <;> first | exact ⟨_, _, rfl⟩ | cases kinds
    have inner : [','].intercalate ((first :: items).map (slotText lexis)) ++ ']' :: rest =
        [','].intercalate ((first' :: others).map (slotText lexis)) ++ ']' :: rest' := by
      simpa [text, slotTexts_eq] using same
    obtain ⟨slots, hRest⟩ := intercalate_cons_unique (.inl rfl) (fun slot present =>
      slotText_readable lexis fun item filled => ih item (filled ▸ present)) inner
    obtain ⟨rfl, rfl⟩ := List.cons.inj slots
    exact ⟨rfl, hRest⟩
  | object members ih =>
    intro other rest rest' _ _ same
    have kinds := kind_eq_of_text same
    obtain ⟨others, rfl⟩ : ∃ others, other = .object others := by
      cases other <;> first | exact ⟨_, rfl⟩ | cases kinds
    have inner : [','].intercalate (members.map (memberText lexis)) ++ '}' :: rest =
        [','].intercalate (others.map (memberText lexis)) ++ '}' :: rest' := by
      simpa [text, memberTexts_eq] using same
    obtain ⟨rfl, hRest⟩ := intercalate_unique (.inr rfl) (memberText_starts lexis)
      (fun member present => memberText_readable lexis (ih member present)) inner
    exact ⟨rfl, hRest⟩

/-- No two trees have one text. -/
theorem text_injective (lexis : Lexis σ ν) : Function.Injective (text lexis) := by
  intro tree other same
  have padded : text lexis tree ++ [] = text lexis other ++ [] := by rw [same]
  exact (text_readable lexis tree other [] [] ends_nil ends_nil padded).1

end Json

end Donna
