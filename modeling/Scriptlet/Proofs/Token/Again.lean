import Scriptlet.Token.Segment

/-!
# Tokens read again

A token takes the longest text that forms one, so what comes after it matters only through the first
cluster: whether that one would continue the token. The text of a token is therefore read as this
token again in front of anything that does not start with such a cluster.
-/

namespace Scriptlet

/-- Whether a piece is reported. -/
def Piece.isFault : Piece → Bool
  | .unexpected | .openString | .openComment => true
  | .token _ | .blank | .lineComment | .blockComment => false

namespace Segment

open Text (Cluster)

/-- Whether a cluster after a token of some kind would make another token of it. -/
def continues (kind : Token.Kind) (next : Cluster) : Bool :=
  match kind with
  | .slash => isChar '/' next || isChar '*' next
  | .bang | .equal | .less | .greater => isChar '=' next
  | .number => isDigit next || isChar '.' next
  | .string => false
  | kind => (kind = .identifier || kind ∈ Token.Kind.reserved) && isWordPart next

/-- A text that starts with no cluster of some property. -/
def Lacks (property : Cluster → Bool) (following : List Cluster) : Prop :=
  ∀ next ∈ following.head?, property next = false

theorem Lacks.imp {property other : Cluster → Bool} {following : List Cluster}
    (lacks : Lacks property following)
    (implies : ∀ next, other next = true → property next = true) : Lacks other following := by
  intro next next_mem
  cases holds : other next with
  | false => rfl
  | true => exact absurd (implies next holds) (by simp [lacks next next_mem])

theorem Lacks.cons {property : Cluster → Bool} {first : Cluster} (lacks : property first = false)
    (following : List Cluster) : Lacks property (first :: following) := by
  rintro next ⟨⟩
  exact lacks

theorem lacks_nil (property : Cluster → Bool) : Lacks property [] := by
  intro next next_mem
  cases next_mem

theorem takeWhile_append_of_lacks {property : Cluster → Bool} {text following : List Cluster}
    (all : ∀ cluster ∈ text, property cluster = true) (lacks : Lacks property following) :
    (text ++ following).takeWhile property = text := by
  have stops : following.takeWhile property = [] := by
    cases following with
    | nil => rfl
    | cons next following => rw [List.takeWhile_cons, lacks next rfl]; rfl
  rw [List.takeWhile_append_of_pos all, stops, List.append_nil]

theorem isDigit_of_isChar {char : Char} {cluster : Cluster} (same : isChar char cluster = true) :
    isDigit cluster = char.isDigit := by
  rw [of_decide_eq_true same]
  simp [isDigit, Cluster.single]

/-- A digit starts a number. -/
theorem measure_of_isDigit {first : Cluster} (digit : isDigit first = true)
    (following : List Cluster) :
    measure first following = (.token .number, numberLength following) := by
  have other_char : ∀ char : Char, char.isDigit = false → isChar char first = false := by
    intro char no_digit
    cases same : isChar char first with
    | false => rfl
    | true =>
        rw [isDigit_of_isChar same, no_digit] at digit
        cases digit
  have not_paired : first ≠ ⟨'\r', ['\n']⟩ := by
    rintro rfl
    cases digit
  have not_blank : isBlank first = false := by
    simp [isBlank, isNewline, not_paired, other_char]
  simp [measure, not_blank, other_char, digit]

/-- Digits are read to their end. -/
theorem numberLength_of_digits {digits following : List Cluster}
    (all : ∀ digit ∈ digits, isDigit digit = true)
    (lacks : Lacks (continues .number) following) :
    numberLength (digits ++ following) = digits.length := by
  have digits_eq : (digits ++ following).takeWhile isDigit = digits :=
    takeWhile_append_of_lacks all (lacks.imp (by simp_all [continues]))
  have no_fraction : fractionLength following = 0 := by
    cases following with
    | nil => rfl
    | cons point following =>
        have no_point := lacks point rfl
        simp only [continues, Bool.or_eq_false_iff] at no_point
        simp [fractionLength, no_point.2]
  simp only [numberLength, digits_eq, List.drop_left, no_fraction, Nat.add_zero]

/-- A point and the digits after it belong to the digits in front of it. -/
theorem numberLength_of_point {digits places following : List Cluster} {point : Cluster}
    (all : ∀ digit ∈ digits, isDigit digit = true) (is_point : isChar '.' point = true)
    (all_places : ∀ digit ∈ places, isDigit digit = true) (some_place : places ≠ [])
    (lacks : Lacks (continues .number) following) :
    numberLength (digits ++ point :: (places ++ following)) = digits.length + (places.length + 1) := by
  have digits_eq : (digits ++ point :: (places ++ following)).takeWhile isDigit = digits := by
    refine takeWhile_append_of_lacks all ?_
    rintro next ⟨⟩
    rw [isDigit_of_isChar is_point]
    rfl
  have places_eq : (places ++ following).takeWhile isDigit = places :=
    takeWhile_append_of_lacks all_places (lacks.imp (by simp_all [continues]))
  have places_pos := List.length_pos_iff.mpr some_place
  simp only [numberLength, digits_eq, List.drop_left, fractionLength, places_eq]
  rw [if_pos ⟨is_point, places_pos⟩]

theorem take_length_takeWhile (property : Cluster → Bool) (text : List Cluster) :
    text.take (text.takeWhile property).length = text.takeWhile property :=
  (List.prefix_iff_eq_take.mp (List.takeWhile_prefix property)).symm

theorem holds_of_mem_takeWhile {property : Cluster → Bool} {text : List Cluster} :
    ∀ cluster ∈ text.takeWhile property, property cluster = true := by
  intro cluster cluster_mem
  exact List.all_eq_true.mp List.all_takeWhile cluster cluster_mem

/-- A fraction is empty or a point with digits. -/
theorem fraction_shape (following : List Cluster) :
    following.take (fractionLength following) = [] ∧ fractionLength following = 0
      ∨ ∃ point places, following.take (fractionLength following) = point :: places ∧
        fractionLength following = places.length + 1 ∧ isChar '.' point = true ∧ places ≠ [] ∧
        ∀ digit ∈ places, isDigit digit = true := by
  cases following with
  | nil => exact .inl ⟨rfl, rfl⟩
  | cons point places =>
      by_cases fractional : isChar '.' point = true ∧ 0 < (places.takeWhile isDigit).length
      · have length_eq : fractionLength (point :: places)
            = (places.takeWhile isDigit).length + 1 := by
          simp only [fractionLength, if_pos fractional]
        refine .inr ⟨point, places.takeWhile isDigit, ?_, length_eq, fractional.1,
          List.length_pos_iff.mp fractional.2, holds_of_mem_takeWhile⟩
        rw [length_eq, List.take_succ_cons, take_length_takeWhile]
      · have length_eq : fractionLength (point :: places) = 0 := by
          simp only [fractionLength, if_neg fractional]
        exact .inl ⟨by rw [length_eq, List.take_zero], length_eq⟩

/-- What belongs to a number is read again in front of what does not continue it. -/
theorem numberLength_again {following other : List Cluster}
    (lacks : Lacks (continues .number) other) :
    numberLength (following.take (numberLength following) ++ other) = numberLength following := by
  have text_eq : following.take (numberLength following) = following.takeWhile isDigit
      ++ (following.drop (following.takeWhile isDigit).length).take
        (fractionLength (following.drop (following.takeWhile isDigit).length)) := by
    rw [numberLength, List.take_add, take_length_takeWhile]
  rw [text_eq]
  rcases fraction_shape (following.drop (following.takeWhile isDigit).length) with
    ⟨fraction_eq, length_eq⟩ | ⟨point, places, fraction_eq, length_eq, is_point, some_place, all⟩
  · rw [fraction_eq, List.append_nil, numberLength_of_digits holds_of_mem_takeWhile lacks,
      numberLength, length_eq, Nat.add_zero]
  · rw [fraction_eq, List.append_assoc, List.cons_append,
      numberLength_of_point holds_of_mem_takeWhile is_point all some_place lacks, numberLength,
      length_eq]

/-- A string goes up to the next quote. -/
theorem measureString_of_body {body : List Cluster}
    (no_quote : ∀ cluster ∈ body, isChar '"' cluster = false) (following : List Cluster) :
    measureString (body ++ .single '"' :: following) = (.token .string, body.length + 1) := by
  have body_eq : (body ++ Cluster.single '"' :: following).takeWhile (!isChar '"' ·) = body := by
    refine takeWhile_append_of_lacks ?_ ?_
    · intro cluster cluster_mem
      rw [no_quote cluster cluster_mem]
      rfl
    · rintro next ⟨⟩
      rfl
  have closing : body.length < (body ++ Cluster.single '"' :: following).length := by
    rw [List.length_append, List.length_cons]
    omega
  simp only [measureString, body_eq, if_pos closing]

theorem exists_body {following : List Cluster} {length : Nat}
    (closed : measureString following = (.token .string, length)) :
    ∃ body others : List Cluster, following = body ++ .single '"' :: others ∧
      length = body.length + 1 ∧ ∀ cluster ∈ body, isChar '"' cluster = false := by
  by_cases closing : (following.takeWhile (!isChar '"' ·)).length < following.length
  · simp only [measureString, if_pos closing, Prod.mk.injEq, true_and] at closed
    have whole_eq : following.takeWhile (!isChar '"' ·) ++ following.dropWhile (!isChar '"' ·)
        = following := List.takeWhile_append_dropWhile
    have stopped := List.head?_dropWhile_not (!isChar '"' ·) following
    cases left_eq : following.dropWhile (!isChar '"' ·) with
    | nil =>
        rw [left_eq, List.append_nil] at whole_eq
        rw [whole_eq] at closing
        exact absurd closing (Nat.lt_irrefl _)
    | cons quote others =>
        rw [left_eq] at whole_eq stopped
        have quote_eq : quote = .single '"' := by simpa [isChar] using stopped
        refine ⟨following.takeWhile (!isChar '"' ·), others, ?_, closed.symm, ?_⟩
        · rw [← quote_eq, whole_eq]
        · intro cluster cluster_mem
          simpa using holds_of_mem_takeWhile cluster cluster_mem
  · simp [measureString, closing] at closed

/-- The only token that starts with a quote is a string. -/
theorem measureString_cases {kind : Token.Kind} {following : List Cluster} {length : Nat}
    (read : measureString following = (.token kind, length)) :
    kind = .string ∧ measureString following = (.token .string, length) := by
  by_cases closing : (following.takeWhile (!isChar '"' ·)).length < following.length
  · simp_all [measureString]
  · simp [measureString, closing] at read

/-- The text of a string is read again in front of anything. -/
theorem measureString_again {following other : List Cluster} {length : Nat}
    (closed : measureString following = (.token .string, length)) :
    measureString (following.take length ++ other) = (.token .string, length) := by
  rcases exists_body closed with ⟨body, others, rfl, rfl, no_quote⟩
  have text_eq : (body ++ Cluster.single '"' :: others).take (body.length + 1)
      = body ++ [.single '"'] := by
    rw [List.take_append, List.take_of_length_le (Nat.le_succ _), Nat.add_sub_cancel_left]
    rfl
  rw [text_eq, List.append_assoc]
  exact measureString_of_body no_quote other

theorem measureWord_again {first : Cluster} {following other : List Cluster} {kind : Token.Kind}
    {length : Nat} (word : measureWord first following = (.token kind, length))
    (lacks : Lacks isWordPart other) :
    measureWord first (following.take length ++ other) = (.token kind, length) := by
  have length_eq : (following.takeWhile isWordPart).length = length := congrArg Prod.snd word
  have tail_eq : (following.take length ++ other).takeWhile isWordPart
      = following.takeWhile isWordPart := by
    rw [← length_eq, take_length_takeWhile]
    exact takeWhile_append_of_lacks holds_of_mem_takeWhile lacks
  rw [← word, measureWord, measureWord, tail_eq]

/-- A word is a name or a reserved word. -/
theorem kind_of_measureWord {first : Cluster} {following : List Cluster} {kind : Token.Kind}
    {length : Nat} (word : measureWord first following = (.token kind, length)) :
    kind = .identifier ∨ kind ∈ Token.Kind.reserved := by
  have kind_eq := congrArg Prod.fst word
  simp only [measureWord, Piece.token.injEq] at kind_eq
  cases found : Token.Kind.keyword?
      (Cluster.text (first :: following.takeWhile isWordPart)) with
  | none => exact .inl (by rw [← kind_eq, found]; rfl)
  | some reserved =>
      rw [found] at kind_eq
      exact .inr (kind_eq ▸ List.mem_of_find?_eq_some found)

/-- A symbol stands alone in front of what does not continue it. -/
theorem measureSymbol_of_lacks {symbol : Token.Kind} {other : List Cluster}
    (lacks : Lacks (continues symbol) other) :
    measureSymbol symbol other = (.token symbol, 0) := by
  cases other with
  | nil => cases symbol <;> rfl
  | cons next other =>
      have next_lacks := lacks next rfl
      cases symbol with
      | bang | equal | less | greater =>
          change isChar '=' next = false at next_lacks
          simp [measureSymbol, withEqual?, next_lacks]
      | _ => rfl

theorem measureSymbol_cases {symbol kind : Token.Kind} {following : List Cluster} {length : Nat}
    (read : measureSymbol symbol following = (.token kind, length)) :
    kind = symbol ∧ length = 0
      ∨ withEqual? symbol = some kind ∧ length = 1 ∧ ∃ next ∈ following.head?, isChar '=' next := by
  rw [measureSymbol] at read
  split at read
  next longer next extended head_eq =>
    split at read
    next is_equal =>
      cases read
      exact .inr ⟨extended, rfl, next, head_eq, is_equal⟩
    next =>
      cases read
      exact .inl ⟨rfl, rfl⟩
  next =>
    cases read
    exact .inl ⟨rfl, rfl⟩

theorem measureSymbol_again {symbol kind : Token.Kind} {following other : List Cluster}
    {length : Nat} (read : measureSymbol symbol following = (.token kind, length))
    (lacks : Lacks (continues kind) other) :
    measureSymbol symbol (following.take length ++ other) = (.token kind, length) := by
  rcases measureSymbol_cases read with ⟨rfl, rfl⟩ | ⟨extended, rfl, next, next_mem, is_equal⟩
  · exact measureSymbol_of_lacks lacks
  · cases following with
    | nil => cases next_mem
    | cons head following =>
        cases next_mem
        simp [measureSymbol, extended, is_equal]

/-- Only names and reserved words are continued by letters and digits. -/
theorem continues_word {kind : Token.Kind}
    (word : kind = .identifier ∨ kind ∈ Token.Kind.reserved) :
    continues kind = isWordPart := by
  funext next
  revert word
  cases kind <;> simp [continues, Token.Kind.reserved]

/-- The only token that starts with a slash is the slash. -/
theorem measureSlash_cases {kind : Token.Kind} {following : List Cluster} {length : Nat}
    (read : measureSlash following = (.token kind, length)) : kind = .slash ∧ length = 0 := by
  cases following with
  | nil => simpa [measureSlash, eq_comm] using read
  | cons second following =>
      simp only [measureSlash] at read
      split at read
      · cases read
      · split at read
        · split at read <;> cases read
        · simpa [eq_comm] using read

theorem measureSlash_again {kind : Token.Kind} {following other : List Cluster} {length : Nat}
    (read : measureSlash following = (.token kind, length))
    (lacks : Lacks (continues kind) other) :
    measureSlash (following.take length ++ other) = (.token kind, length) := by
  rcases measureSlash_cases read with ⟨rfl, rfl⟩
  cases other with
  | nil => rfl
  | cons second other =>
      have no_comment := lacks second rfl
      simp only [continues, Bool.or_eq_false_iff] at no_comment
      simp [measureSlash, no_comment]

/-- The text of a token is read as this token again in front of what does not continue it. -/
theorem measure_again {first : Cluster} {following other : List Cluster} {kind : Token.Kind}
    {length : Nat} (read : measure first following = (.token kind, length))
    (lacks : Lacks (continues kind) other) :
    measure first (following.take length ++ other) = (.token kind, length) := by
  rw [measure] at read ⊢
  by_cases blank : isBlank first
  · rw [if_pos blank] at read
    cases read
  rw [if_neg blank] at read ⊢
  by_cases quote : isChar '"' first
  · rw [if_pos quote] at read ⊢
    rcases measureString_cases read with ⟨rfl, closed⟩
    exact measureString_again closed
  rw [if_neg quote] at read ⊢
  by_cases digit : isDigit first
  · rw [if_pos digit] at read ⊢
    cases read
    rw [numberLength_again lacks]
  rw [if_neg digit] at read ⊢
  by_cases letter : isLetter first
  · rw [if_pos letter] at read ⊢
    rw [continues_word (kind_of_measureWord read)] at lacks
    exact measureWord_again read lacks
  rw [if_neg letter] at read ⊢
  cases symbol_eq : symbol? first with
  | none =>
      rw [symbol_eq] at read
      cases read
  | some symbol =>
      rw [symbol_eq] at read
      cases symbol with
      | slash => exact measureSlash_again read lacks
      | _ => exact measureSymbol_again read lacks

theorem fractionLength_le (following : List Cluster) :
    fractionLength following ≤ following.length := by
  cases following with
  | nil => exact Nat.le_refl 0
  | cons point digits =>
      have count_le : (digits.takeWhile isDigit).length ≤ digits.length :=
        (List.takeWhile_sublist isDigit).length_le
      simp only [fractionLength, List.length_cons]
      split <;> omega

theorem numberLength_le (following : List Cluster) : numberLength following ≤ following.length := by
  have count_le : (following.takeWhile isDigit).length ≤ following.length :=
    (List.takeWhile_sublist isDigit).length_le
  have fraction_le := fractionLength_le (following.drop (following.takeWhile isDigit).length)
  rw [List.length_drop] at fraction_le
  simp only [numberLength]
  omega

theorem closingLength?_le {following : List Cluster} {length : Nat}
    (closed : closingLength? following = some length) : length ≤ following.length := by
  fun_induction closingLength? following generalizing length with
  | case1 =>
      cases closed
      simp only [List.length_cons]
      omega
  | case2 star slash following _ ih =>
      rcases Option.map_eq_some_iff.mp closed with ⟨shorter, found, rfl⟩
      exact Nat.succ_le_succ (ih found)
  | case3 => cases closed

theorem measureSlash_le (following : List Cluster) :
    (measureSlash following).2 ≤ following.length := by
  cases following with
  | nil => exact Nat.le_refl 0
  | cons second following =>
      simp only [measureSlash]
      split
      · exact Nat.succ_le_succ (List.takeWhile_sublist _).length_le
      · split
        · split
          next length closed => exact Nat.succ_le_succ (closingLength?_le closed)
          next => exact Nat.le_refl _
        · exact Nat.zero_le _

/-- No piece takes more than there is. -/
theorem measure_le (first : Cluster) (following : List Cluster) :
    (measure first following).2 ≤ following.length := by
  rw [measure]
  split
  · exact Nat.zero_le _
  split
  · have quote_le := (List.takeWhile_sublist (!isChar '"' ·) (l := following)).length_le
    simp only [measureString]
    split
    · assumption
    · exact quote_le
  split
  · exact numberLength_le following
  split
  · exact (List.takeWhile_sublist isWordPart).length_le
  split
  · exact measureSlash_le following
  · simp only [measureSymbol]
    split
    next _ next _ head_eq =>
      cases following with
      | nil => cases head_eq
      | cons head following =>
          split
          · exact Nat.succ_le_succ (Nat.zero_le _)
          · exact Nat.zero_le _
    next => exact Nat.zero_le _
  · exact Nat.zero_le _

theorem length_le_of_measure {first : Cluster} {following : List Cluster} {piece : Piece}
    {length : Nat} (read : measure first following = (piece, length)) :
    length ≤ following.length := by
  simpa only [read] using measure_le first following

end Segment

end Scriptlet
