import WhisperChat.Json.Tree
import WhisperChat.Json.Written
import WhisperChat.Proofs.Decimal

/-!
# Written JSON reads back

A value that writing loses nothing of is written as a text that reads as that value and nothing
else (`parse?_render`).  The text is cut into the tokens of the value, whatever follows it, and the
tokens of a value build the value at any place where one is awaited.
-/

namespace WhisperChat.Json

/-! ## Numbers -/

namespace Number

/-- What follows a number does not go on with it. -/
def Ends (rest : List Char) : Prop :=
  ∀ c, rest.head? = some c → c.isDigit = false ∧ c ≠ '.' ∧ c ≠ 'e' ∧ c ≠ 'E'

theorem ends_nil : Ends [] := by
  intro c h
  cases h

theorem ends_cons {c : Char} {rest : List Char}
    (h : c.isDigit = false ∧ c ≠ '.' ∧ c ≠ 'e' ∧ c ≠ 'E') : Ends (c :: rest) := by
  rintro _ ⟨⟩
  exact h

theorem Ends.endsRun {rest : List Char} (h : Ends rest) : Decimal.EndsRun rest :=
  fun c hc ↦ (h c hc).1

theorem digits?_run {run rest : List Char} (hne : run ≠ []) (hrun : ∀ c ∈ run, c.isDigit = true)
    (hrest : Decimal.EndsRun rest) : digits? (run ++ rest) = some (run, rest) := by
  simp [digits?, Decimal.takeWhile_run hrun hrest, Decimal.dropWhile_run hrun hrest, hne]

theorem whole?_digits (n : Nat) {rest : List Char} (hrest : Decimal.EndsRun rest) :
    whole? (Decimal.digits n ++ rest) = some (Decimal.digits n, rest) := by
  have hrun := digits?_run (Decimal.digits_ne_nil n)
    (fun c ↦ Decimal.isDigit_of_mem_digits) hrest
  rcases Nat.eq_zero_or_pos n with rfl | hn
  · rw [whole?, hrun]
    rfl
  · simp [whole?, hrun, Decimal.head?_digits_ne_zero hn]

theorem fraction?_of_ends {rest : List Char} (h : Ends rest) :
    fraction? rest = some (none, rest) := by
  unfold fraction?
  split
  · exact absurd rfl (h '.' rfl).2.1
  · rfl

theorem exponent?_of_ends {rest : List Char} (h : Ends rest) :
    exponent? rest = some (none, rest) := by
  unfold exponent?
  split
  · exact absurd rfl (h 'e' rfl).2.2.1
  · exact absurd rfl (h 'E' rfl).2.2.2
  · rfl

theorem unsigned?_digits (negative : Bool) (n : Nat) {rest : List Char} (h : Ends rest) :
    unsigned? negative (Decimal.digits n ++ rest) =
      some (ofParts negative (Decimal.digits n) none none, rest) := by
  simp [unsigned?, whole?_digits n h.endsRun, fraction?_of_ends h, exponent?_of_ends h]

/-- A written integer is read back as far as it goes. -/
theorem scan?_chars (i : Int) {rest : List Char} (h : Ends rest) :
    scan? (Decimal.chars i ++ rest) = some (.integer i, rest) := by
  cases i with
  | ofNat n =>
    have hhead : ∀ cs, Decimal.digits n ++ rest ≠ '-' :: cs := by
      intro cs heq
      obtain ⟨d, ds, hds⟩ := List.exists_cons_of_ne_nil (Decimal.digits_ne_nil n)
      have hne := Decimal.head?_digits_ne (n := n) (c := '-') (by decide)
      rw [hds] at heq hne
      injection heq with hd
      exact hne (congrArg some hd)
    rw [Decimal.chars, scan?]
    · simp [unsigned?_digits false n h, ofParts, Decimal.ofDigitChars_digits]
    · exact hhead
  | negSucc n =>
    simp only [Decimal.chars, List.cons_append, scan?, unsigned?_digits true (n + 1) h, ofParts,
      Decimal.ofDigitChars_digits]
    simp [Int.negSucc_eq]

end Number

/-! ## Tokens of a value -/

mutual

/-- Whether writing loses nothing of the value: it is closed throughout, its texts are texts and its
numbers integers. -/
def isExact : Json → Bool
  | null | bool _ | number (.integer _) => true
  | number (.real _) | broken => false
  | text value => value.isSome
  | array items closed => closed && areExact items
  | object members closed => closed && membersExact members

def areExact : List Json → Bool
  | [] => true
  | item :: items => item.isExact && areExact items

def membersExact : List (Option String × Json) → Bool
  | [] => true
  | (name, value) :: members => name.isSome && value.isExact && membersExact members

end

mutual

def tokens : Json → List Token
  | null => [.null]
  | bool value => [.bool value]
  | number value => [.number value]
  | text value => [.text value]
  | array items _ => .openBracket :: itemTokens items ++ [.closeBracket]
  | object members _ => .openBrace :: memberTokens members ++ [.closeBrace]
  | broken => [.bad]

def itemTokens : List Json → List Token
  | [] => []
  | [item] => item.tokens
  | item :: items => item.tokens ++ .comma :: itemTokens items

def memberTokens : List (Option String × Json) → List Token
  | [] => []
  | [(name, value)] => .text name :: .colon :: value.tokens
  | (name, value) :: members =>
    .text name :: .colon :: value.tokens ++ .comma :: memberTokens members

end

/-! ## From characters to tokens -/

namespace Token

theorem scan_cons {c : Char} {cs : List Char} (h : isBlank c = false) :
    scan (c :: cs) = (next c cs).1 :: scan (next c cs).2 := by
  rw [scan, h]
  rfl

theorem scan_quote (s : String) (rest : List Char) :
    scan (Text.quote s ++ rest) = .text (some s) :: scan rest := by
  have hread := Text.scan?_quote s rest
  simp only [Text.quote, List.cons_append, List.tail_cons] at hread ⊢
  rw [scan_cons (by decide)]
  simp only [next, hread]

/-- A digit or a minus sign starts a number and nothing else. -/
theorem next_of_number {c : Char} {cs rest : List Char} {value : Number}
    (hc : c.isDigit = true ∨ c = '-') (h : Number.scan? (c :: cs) = some (value, rest)) :
    next c cs = (number value, rest) := by
  unfold next
  split
  case h_11 => rw [h]
  all_goals
    exfalso
    revert hc
    decide

theorem isBlank_of_number {c : Char} (hc : c.isDigit = true ∨ c = '-') : isBlank c = false := by
  by_contra hblank
  simp only [isBlank, Bool.or_eq_true, decide_eq_true_eq, Bool.not_eq_false] at hblank
  rcases hblank with ((rfl | rfl) | rfl) | rfl <;> revert hc <;> decide

theorem exists_chars_cons (i : Int) :
    ∃ c cs, Decimal.chars i = c :: cs ∧ (c.isDigit = true ∨ c = '-') := by
  cases i with
  | ofNat n =>
    obtain ⟨c, cs, hcs⟩ := List.exists_cons_of_ne_nil (Decimal.digits_ne_nil n)
    exact ⟨c, cs, hcs, .inl (Decimal.isDigit_of_mem_digits (hcs ▸ List.mem_cons_self))⟩
  | negSucc n => exact ⟨'-', _, rfl, .inr rfl⟩

theorem scan_chars_integer (i : Int) {rest : List Char} (h : Number.Ends rest) :
    scan (Decimal.chars i ++ rest) = .number (.integer i) :: scan rest := by
  have hread := Number.scan?_chars i h
  obtain ⟨c, cs, hcs, hc⟩ := exists_chars_cons i
  rw [hcs, List.cons_append] at hread ⊢
  rw [scan_cons (isBlank_of_number hc), next_of_number hc hread]

/-- A sign of the grammar is a token by itself. -/
theorem scan_sign {c : Char} {l : List Char} {t : Token} (hblank : isBlank c = false)
    (hnext : next c l = (t, l)) : scan (c :: l) = t :: scan l := by
  rw [scan_cons hblank, hnext]

end Token

theorem ends_comma (rest : List Char) : Number.Ends (',' :: rest) := Number.ends_cons (by decide)

mutual

/-- The characters of a value are cut into its tokens, whatever comes after them. -/
theorem scan_chars : ∀ (v : Json) {rest : List Char}, v.isExact = true → Number.Ends rest →
    Token.scan (v.chars ++ rest) = v.tokens ++ Token.scan rest
  | null, rest, _, _ => Token.scan_cons (c := 'n') (by decide)
  | bool true, rest, _, _ => Token.scan_cons (c := 't') (by decide)
  | bool false, rest, _, _ => Token.scan_cons (c := 'f') (by decide)
  | number (.integer i), rest, _, hrest => Token.scan_chars_integer i hrest
  | number (.real _), rest, h, _ => by simp [isExact] at h
  | text none, rest, h, _ => by simp [isExact] at h
  | text (some s), rest, _, _ => Token.scan_quote s rest
  | array items closed, rest, h, _ => by
    simp only [isExact, Bool.and_eq_true] at h
    have hitems : Token.scan (itemChars items ++ ']' :: rest) =
        itemTokens items ++ Token.scan (']' :: rest) :=
      scan_itemChars items h.2 (Number.ends_cons (by decide))
    have hclose : Token.scan (']' :: rest) = .closeBracket :: Token.scan rest :=
      Token.scan_sign (by decide) rfl
    simp only [chars, tokens, List.cons_append, List.append_assoc, List.nil_append]
    rw [Token.scan_sign (t := .openBracket) (by decide) rfl, hitems, hclose]
  | object members closed, rest, h, _ => by
    simp only [isExact, Bool.and_eq_true] at h
    have hmembers : Token.scan (memberChars members ++ '\x7d' :: rest) =
        memberTokens members ++ Token.scan ('\x7d' :: rest) :=
      scan_memberChars members h.2 (Number.ends_cons (by decide))
    have hclose : Token.scan ('\x7d' :: rest) = .closeBrace :: Token.scan rest :=
      Token.scan_sign (by decide) rfl
    simp only [chars, tokens, List.cons_append, List.append_assoc, List.nil_append]
    rw [Token.scan_sign (t := .openBrace) (by decide) rfl, hmembers, hclose]
  | broken, rest, h, _ => by simp [isExact] at h

theorem scan_itemChars : ∀ (items : List Json) {rest : List Char}, areExact items = true →
    Number.Ends rest → Token.scan (itemChars items ++ rest) = itemTokens items ++ Token.scan rest
  | [], rest, _, _ => rfl
  | [item], rest, h, hrest => by
    simp only [areExact, Bool.and_true] at h
    simpa only [itemChars, itemTokens] using scan_chars item h hrest
  | item :: next :: items, rest, h, hrest => by
    rw [areExact, Bool.and_eq_true] at h
    have hitem := scan_chars item h.1 (ends_comma (itemChars (next :: items) ++ rest))
    have htail := scan_itemChars (next :: items) h.2 hrest
    have hcomma := Token.scan_sign (c := ',') (t := .comma)
      (l := itemChars (next :: items) ++ rest) (by decide) rfl
    simp only [itemChars, itemTokens, List.append_assoc, List.cons_append]
    rw [hitem, hcomma, htail]

theorem scan_memberChars : ∀ (members : List (Option String × Json)) {rest : List Char},
    membersExact members = true → Number.Ends rest →
    Token.scan (memberChars members ++ rest) = memberTokens members ++ Token.scan rest
  | [], rest, _, _ => rfl
  | [(none, value)], rest, h, _ => by simp [membersExact] at h
  | [(some name, value)], rest, h, hrest => by
    simp only [membersExact, Option.isSome_some, Bool.true_and, Bool.and_true] at h
    have hcolon := Token.scan_sign (c := ':') (t := .colon) (l := value.chars ++ rest)
      (by decide) rfl
    simp only [memberChars, memberTokens, Option.getD_some, List.append_assoc, List.cons_append]
    rw [Token.scan_quote, hcolon, scan_chars value h hrest]
  | (none, value) :: next :: members, rest, h, _ => by simp [membersExact] at h
  | (some name, value) :: next :: members, rest, h, hrest => by
    rw [membersExact, Option.isSome_some, Bool.true_and, Bool.and_eq_true] at h
    have hvalue := scan_chars value h.1 (ends_comma (memberChars (next :: members) ++ rest))
    have htail := scan_memberChars (next :: members) h.2 hrest
    have hcolon := Token.scan_sign (c := ':') (t := .colon)
      (l := value.chars ++ ',' :: (memberChars (next :: members) ++ rest)) (by decide) rfl
    have hcomma := Token.scan_sign (c := ',') (t := .comma)
      (l := memberChars (next :: members) ++ rest) (by decide) rfl
    simp only [memberChars, memberTokens, Option.getD_some, List.append_assoc, List.cons_append]
    rw [Token.scan_quote, hcolon, hvalue, hcomma, htail]

end

/-! ## From tokens to a value -/

/-- Reading goes on where a step leads. -/
def resume (next : Next) (tokens : List Token) : Json × List Token :=
  match next with
  | .done tree => (tree, tokens)
  | .go awaited frames => build awaited frames tokens

theorem build_cons {awaited : Awaited} {frames : List Frame} {token : Token} {tokens : List Token}
    {next : Next} (h : advance awaited frames token = some next) :
    build awaited frames (token :: tokens) = resume next tokens := by
  rw [build, h]
  cases next <;> rfl

theorem build_go {awaited awaited' : Awaited} {frames frames' : List Frame} {token : Token}
    {tokens : List Token} (h : advance awaited frames token = some (.go awaited' frames')) :
    build awaited frames (token :: tokens) = build awaited' frames' tokens := build_cons h

/-- A name and its colon lead to the value of the member. -/
theorem build_name (before : List (Option String × Json)) (frames : List Frame)
    (name : Option String) (rest : List Token) :
    build (.name before) frames (.text name :: .colon :: rest) =
      build .value (.object before name :: frames) rest := by
  calc
    build (.name before) frames (.text name :: .colon :: rest) =
        build (.colon before name) frames (.colon :: rest) := build_go rfl
    _ = build .value (.object before name :: frames) rest := build_go rfl

/-- The first item of an array is read like any other item. -/
theorem build_firstItem (v : Json) (frames : List Frame) (rest : List Token) :
    build .firstItem frames (v.tokens ++ rest) =
      build .value (.array [] :: frames) (v.tokens ++ rest) := by
  cases v <;> rfl

theorem build_firstItems (item : Json) (items : List Json) (frames : List Frame)
    (rest : List Token) :
    build .firstItem frames (itemTokens (item :: items) ++ rest) =
      build .value (.array [] :: frames) (itemTokens (item :: items) ++ rest) := by
  cases items with
  | nil => exact build_firstItem item frames rest
  | cons next items =>
    simp only [itemTokens, List.append_assoc]
    exact build_firstItem item frames _

/-- The first member of an object is read like any other member. -/
theorem build_firstMembers (member : Option String × Json) (members : List (Option String × Json))
    (frames : List Frame) (rest : List Token) :
    build .firstName frames (memberTokens (member :: members) ++ rest) =
      build (.name []) frames (memberTokens (member :: members) ++ rest) := by
  cases members <;> rfl

mutual

/-- The tokens of a value build it wherever a value is awaited. -/
theorem build_tokens : ∀ (v : Json) (frames : List Frame) (rest : List Token), v.isExact = true →
    build .value frames (v.tokens ++ rest) = resume (afterValue v frames) rest
  | null, frames, rest, _ => build_cons rfl
  | bool _, frames, rest, _ => build_cons rfl
  | number _, frames, rest, _ => build_cons rfl
  | text _, frames, rest, _ => build_cons rfl
  | array [] true, frames, rest, _ => by
    calc
      build .value frames ((array [] true).tokens ++ rest) =
          build .firstItem frames (.closeBracket :: rest) := build_go rfl
      _ = resume (afterValue (array [] true) frames) rest := build_cons rfl
  | array (item :: items) true, frames, rest, h => by
    have hall : areExact (item :: items) = true := by simpa [isExact] using h
    calc
      build .value frames ((array (item :: items) true).tokens ++ rest) =
          build .firstItem frames (itemTokens (item :: items) ++ .closeBracket :: rest) := by
        simp only [tokens, List.cons_append, List.append_assoc, List.nil_append]
        exact build_go rfl
      _ = build .value (.array [] :: frames)
          (itemTokens (item :: items) ++ .closeBracket :: rest) :=
        build_firstItems item items frames _
      _ = resume (afterValue (array (item :: items) true) frames) rest :=
        build_itemTokens (item :: items) [] frames rest (by simp) hall
  | array _ false, frames, rest, h => by simp [isExact] at h
  | object [] true, frames, rest, _ => by
    calc
      build .value frames ((object [] true).tokens ++ rest) =
          build .firstName frames (.closeBrace :: rest) := build_go rfl
      _ = resume (afterValue (object [] true) frames) rest := build_cons rfl
  | object (member :: members) true, frames, rest, h => by
    have hall : membersExact (member :: members) = true := by simpa [isExact] using h
    calc
      build .value frames ((object (member :: members) true).tokens ++ rest) =
          build .firstName frames (memberTokens (member :: members) ++ .closeBrace :: rest) := by
        simp only [tokens, List.cons_append, List.append_assoc, List.nil_append]
        exact build_go rfl
      _ = build (.name []) frames (memberTokens (member :: members) ++ .closeBrace :: rest) :=
        build_firstMembers member members frames _
      _ = resume (afterValue (object (member :: members) true) frames) rest :=
        build_memberTokens (member :: members) [] frames rest (by simp) hall
  | object _ false, frames, rest, h => by simp [isExact] at h
  | broken, frames, rest, h => by simp [isExact] at h

/-- The tokens of the items that are left build the array, after the items `before`. -/
theorem build_itemTokens : ∀ (items before : List Json) (frames : List Frame) (rest : List Token),
    items ≠ [] → areExact items = true →
    build .value (.array before :: frames) (itemTokens items ++ .closeBracket :: rest) =
      resume (afterValue (.array (before.reverse ++ items) true) frames) rest
  | [], _, _, _, hne, _ => absurd rfl hne
  | [item], before, frames, rest, _, h => by
    have hitem : item.isExact = true := by simpa [areExact] using h
    calc
      build .value (.array before :: frames) (itemTokens [item] ++ .closeBracket :: rest) =
          build (.itemEnd (item :: before)) frames (.closeBracket :: rest) :=
        build_tokens item _ _ hitem
      _ = resume (afterValue (.array (item :: before).reverse true) frames) rest := build_cons rfl
      _ = resume (afterValue (.array (before.reverse ++ [item]) true) frames) rest := by
        rw [List.reverse_cons]
  | item :: next :: items, before, frames, rest, _, h => by
    rw [areExact, Bool.and_eq_true] at h
    have htail := build_itemTokens (next :: items) (item :: before) frames rest (by simp) h.2
    calc
      build .value (.array before :: frames)
            (itemTokens (item :: next :: items) ++ .closeBracket :: rest) =
          build .value (.array before :: frames)
            (item.tokens ++ .comma :: (itemTokens (next :: items) ++ .closeBracket :: rest)) := by
        simp only [itemTokens, List.append_assoc, List.cons_append]
      _ = build (.itemEnd (item :: before)) frames
            (.comma :: (itemTokens (next :: items) ++ .closeBracket :: rest)) :=
        build_tokens item _ _ h.1
      _ = build .value (.array (item :: before) :: frames)
            (itemTokens (next :: items) ++ .closeBracket :: rest) := build_go rfl
      _ = resume (afterValue (.array ((item :: before).reverse ++ next :: items) true) frames)
            rest := htail
      _ = resume (afterValue (.array (before.reverse ++ item :: next :: items) true) frames)
            rest := by
        rw [List.reverse_cons, List.append_assoc, List.singleton_append]

/-- The tokens of the members that are left build the object, after the members `before`. -/
theorem build_memberTokens : ∀ (members before : List (Option String × Json))
    (frames : List Frame) (rest : List Token), members ≠ [] → membersExact members = true →
    build (.name before) frames (memberTokens members ++ .closeBrace :: rest) =
      resume (afterValue (.object (before.reverse ++ members) true) frames) rest
  | [], _, _, _, hne, _ => absurd rfl hne
  | [(name, value)], before, frames, rest, _, h => by
    have hvalue : value.isExact = true := by
      simp only [membersExact, Bool.and_true, Bool.and_eq_true] at h
      exact h.2
    calc
      build (.name before) frames (memberTokens [(name, value)] ++ .closeBrace :: rest) =
          build .value (.object before name :: frames) (value.tokens ++ .closeBrace :: rest) :=
        build_name before frames name _
      _ = build (.memberEnd ((name, value) :: before)) frames (.closeBrace :: rest) :=
        build_tokens value _ _ hvalue
      _ = resume (afterValue (.object ((name, value) :: before).reverse true) frames) rest :=
        build_cons rfl
      _ = resume (afterValue (.object (before.reverse ++ [(name, value)]) true) frames) rest := by
        rw [List.reverse_cons]
  | (name, value) :: next :: members, before, frames, rest, _, h => by
    rw [membersExact, Bool.and_eq_true, Bool.and_eq_true] at h
    have htail :=
      build_memberTokens (next :: members) ((name, value) :: before) frames rest (by simp) h.2
    calc
      build (.name before) frames
            (memberTokens ((name, value) :: next :: members) ++ .closeBrace :: rest) =
          build (.name before) frames (.text name :: .colon :: (value.tokens ++
            .comma :: (memberTokens (next :: members) ++ .closeBrace :: rest))) := by
        simp only [memberTokens, List.append_assoc, List.cons_append]
      _ = build .value (.object before name :: frames) (value.tokens ++
            .comma :: (memberTokens (next :: members) ++ .closeBrace :: rest)) :=
        build_name before frames name _
      _ = build (.memberEnd ((name, value) :: before)) frames
            (.comma :: (memberTokens (next :: members) ++ .closeBrace :: rest)) :=
        build_tokens value _ _ h.1.2
      _ = build (.name ((name, value) :: before)) frames
            (memberTokens (next :: members) ++ .closeBrace :: rest) := build_go rfl
      _ = resume (afterValue
            (.object (((name, value) :: before).reverse ++ next :: members) true) frames)
            rest := htail
      _ = resume (afterValue (.object (before.reverse ++ (name, value) :: next :: members) true)
            frames) rest := by
        rw [List.reverse_cons, List.append_assoc, List.singleton_append]

end

/-! ## Reading back -/

mutual

theorem whole_of_isExact : ∀ v : Json, v.isExact = true → v.whole = true
  | null, _ | bool _, _ | number _, _ | text _, _ => rfl
  | array items closed, h => by
    simp only [isExact, Bool.and_eq_true] at h
    simp only [whole, h.1, wholeItems_of_areExact items h.2, Bool.and_self]
  | object members closed, h => by
    simp only [isExact, Bool.and_eq_true] at h
    simp only [whole, h.1, wholeMembers_of_membersExact members h.2, Bool.and_self]
  | broken, h => by simp [isExact] at h

theorem wholeItems_of_areExact :
    ∀ items : List Json, areExact items = true → wholeItems items = true
  | [], _ => rfl
  | item :: items, h => by
    simp only [areExact, Bool.and_eq_true] at h
    simp only [wholeItems, whole_of_isExact item h.1, wholeItems_of_areExact items h.2,
      Bool.and_self]

theorem wholeMembers_of_membersExact : ∀ members : List (Option String × Json),
    membersExact members = true → wholeMembers members = true
  | [], _ => rfl
  | (name, value) :: members, h => by
    simp only [membersExact, Bool.and_eq_true] at h
    simp only [wholeMembers, whole_of_isExact value h.1.2,
      wholeMembers_of_membersExact members h.2, Bool.and_self]

end

/-- A value that writing loses nothing of is what its text says. -/
theorem parse?_render {v : Json} (h : v.isExact = true) : parse? v.render = some v := by
  have hscan : Token.scan v.chars = v.tokens := by
    simpa [Token.scan] using scan_chars v h Number.ends_nil
  have hbuild : build .value [] v.tokens = (v, []) := by
    simpa [resume, afterValue] using build_tokens v [] [] h
  simp [parse?, read, render, hscan, hbuild, whole_of_isExact v h]

end WhisperChat.Json
