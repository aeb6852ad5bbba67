import Scriptlet.Proofs.Token.Again

/-!
# Segments before the end of a line

The end of a line stops every piece that closes: a token or a comment that was read without the
line end is read just as well in front of it, whatever stands on the lines after it. A carriage
return alone stops them too, except that a comment to the end of the line takes it in.
-/

namespace Scriptlet.Segment

open Text (Cluster)

theorem isBlank_cases {stop : Cluster} (blank : isBlank stop = true) :
    stop = .single '\n' ∨ stop = ⟨'\r', ['\n']⟩ ∨ stop = .single ' ' ∨ stop = .single '\r' ∨
      stop = .single '\t' := by
  simpa [isBlank, isNewline, isChar, or_assoc] using blank

/-- Layout continues no token and closes none. -/
structure Stops (stop : Cluster) : Prop where
  no_point : isChar '.' stop = false
  no_equal : isChar '=' stop = false
  no_slash : isChar '/' stop = false
  no_star : isChar '*' stop = false
  no_digit : isDigit stop = false
  no_wordPart : isWordPart stop = false

theorem stops_of_isBlank {stop : Cluster} (blank : isBlank stop = true) : Stops stop := by
  rcases isBlank_cases blank with rfl | rfl | rfl | rfl | rfl <;>
    exact ⟨by decide, by decide, by decide, by decide, by decide, by decide⟩

theorem continues_of_stops {stop : Cluster} (stops : Stops stop) (kind : Token.Kind) :
    continues kind stop = false := by
  cases kind <;>
    simp [continues, stops.no_point, stops.no_equal, stops.no_slash, stops.no_star,
      stops.no_digit, stops.no_wordPart]

variable {stop : Cluster} {text : List Cluster}

theorem takeWhile_before {property : Cluster → Bool} (stops : property stop = false)
    (text later : List Cluster) :
    (text ++ stop :: later).takeWhile property = text.takeWhile property := by
  induction text with
  | nil => rw [List.nil_append, List.takeWhile_cons, stops]; rfl
  | cons head text ih => rw [List.cons_append, List.takeWhile_cons, List.takeWhile_cons, ih]

theorem fractionLength_before (stops : Stops stop) (text later : List Cluster) :
    fractionLength (text ++ stop :: later) = fractionLength text := by
  cases text with
  | nil => simp [fractionLength, stops.no_point]
  | cons point digits =>
      simp only [List.cons_append, fractionLength, takeWhile_before stops.no_digit]

theorem numberLength_before (stops : Stops stop) (text later : List Cluster) :
    numberLength (text ++ stop :: later) = numberLength text := by
  have count_le : (text.takeWhile isDigit).length ≤ text.length :=
    (List.takeWhile_sublist isDigit).length_le
  simp only [numberLength, takeWhile_before stops.no_digit, List.drop_append_of_le_length count_le,
    fractionLength_before stops]

/-- A closed string stays what it is in front of anything. -/
theorem measureString_before {length : Nat} (read : measureString text = (.token .string, length))
    (later : List Cluster) : measureString (text ++ later) = (.token .string, length) := by
  rcases exists_body read with ⟨body, others, rfl, rfl, no_quote⟩
  rw [List.append_assoc, List.cons_append]
  exact measureString_of_body no_quote (others ++ later)

theorem measureString_of_sound {piece : Piece} {length : Nat}
    (read : measureString text = (piece, length)) (sound : piece.isFault = false) :
    piece = .token .string := by
  simp only [measureString] at read
  split at read
  · cases read
    rfl
  · cases read
    cases sound

theorem measureWord_before (stops : Stops stop) (first : Cluster) (text later : List Cluster) :
    measureWord first (text ++ stop :: later) = measureWord first text := by
  rw [measureWord, measureWord, takeWhile_before stops.no_wordPart]

theorem measureSymbol_before (stops : Stops stop) (symbol : Token.Kind)
    (text later : List Cluster) :
    measureSymbol symbol (text ++ stop :: later) = measureSymbol symbol text := by
  cases text with
  | nil =>
      rw [List.nil_append, measureSymbol_of_lacks, measureSymbol_of_lacks (lacks_nil _)]
      exact Lacks.cons (continues_of_stops stops symbol) later
  | cons next text => rfl

/-- A closed comment stays what it is in front of anything. -/
theorem closingLength?_append {length : Nat} (closed : closingLength? text = some length)
    (later : List Cluster) : closingLength? (text ++ later) = some length := by
  fun_induction closingLength? text generalizing length with
  | case1 star slash following marks =>
      cases closed
      simp [closingLength?, marks]
  | case2 star slash following marks ih =>
      rcases Option.map_eq_some_iff.mp closed with ⟨shorter, found, rfl⟩
      have longer := ih found
      simp only [List.cons_append] at longer ⊢
      rw [closingLength?, if_neg marks, longer]
      rfl
  | case3 => cases closed

/-- What starts with a slash and closes stays what it is in front of a line end; a token or a block
comment also in front of other layout. -/
theorem measureSlash_before (stops : Stops stop) {piece : Piece} {length : Nat}
    (read : measureSlash text = (piece, length)) (sound : piece.isFault = false)
    (ends : isNewline stop = true ∨ piece ≠ .lineComment) (later : List Cluster) :
    measureSlash (text ++ stop :: later) = (piece, length) := by
  cases text with
  | nil =>
      rw [← read]
      simp [measureSlash, stops.no_slash, stops.no_star]
  | cons second text =>
      simp only [measureSlash, List.cons_append] at read ⊢
      split at read
      next slash =>
        cases read
        rcases ends with newline | other
        · have stopped : (!isNewline stop) = false := by rw [newline]; rfl
          rw [if_pos slash, @takeWhile_before stop (!isNewline ·) stopped]
        · exact absurd rfl other
      next no_slash =>
        rw [if_neg no_slash]
        split at read
        next star =>
          rw [if_pos star]
          split at read
          next closed =>
            cases read
            rw [closingLength?_append closed]
          next =>
            cases read
            cases sound
        next no_star =>
          rw [if_neg no_star]
          exact read

/-- What closes stays what it is in front of a line end; all but a comment to the end of the line
also in front of other layout. -/
theorem measure_before (blank : isBlank stop = true) {first : Cluster} {piece : Piece} {length : Nat}
    (read : measure first text = (piece, length)) (sound : piece.isFault = false)
    (ends : isNewline stop = true ∨ piece ≠ .lineComment) (later : List Cluster) :
    measure first (text ++ stop :: later) = (piece, length) := by
  have stops := stops_of_isBlank blank
  rw [measure] at read ⊢
  split at read
  next first_blank => rw [if_pos first_blank, read]
  next first_visible =>
  rw [if_neg first_visible]
  split at read
  next quote =>
    rw [if_pos quote]
    rcases measureString_of_sound read sound with rfl
    exact measureString_before read (stop :: later)
  next no_quote =>
  rw [if_neg no_quote]
  split at read
  next digit => rw [if_pos digit, numberLength_before stops, read]
  next no_digit =>
  rw [if_neg no_digit]
  split at read
  next letter => rw [if_pos letter, measureWord_before stops, read]
  next no_letter =>
  rw [if_neg no_letter]
  cases symbol_eq : symbol? first with
  | none =>
      rw [symbol_eq] at read
      exact read
  | some symbol =>
      rw [symbol_eq] at read
      cases symbol with
      | slash => exact measureSlash_before stops read sound ends later
      | _ => exact (measureSymbol_before stops _ text later).trans read

theorem isFault_measureString_return (fault : (measureString text).1.isFault = true) :
    (measureString (text ++ [.single '\r'])).1.isFault = true := by
  simp only [measureString] at fault
  split at fault
  next => cases fault
  next open_end =>
    have whole : text.takeWhile (!isChar '"' ·) = text :=
      (List.takeWhile_prefix _).eq_of_length_le (Nat.le_of_not_lt open_end)
    have all : ∀ cluster ∈ text, (!isChar '"' cluster) = true := by
      rw [← whole]
      exact holds_of_mem_takeWhile
    have longer : (text ++ [Cluster.single '\r']).takeWhile (!isChar '"' ·)
        = text ++ [.single '\r'] := by
      rw [List.takeWhile_append_of_pos all]
      rfl
    simp only [measureString, longer, Nat.lt_irrefl, if_false]
    rfl

theorem closingLength?_open (open_end : closingLength? text = none) :
    closingLength? (text ++ [.single '\r']) = none := by
  fun_induction closingLength? text with
  | case1 => cases open_end
  | case2 star slash following marks ih =>
      have shorter := ih (Option.map_eq_none_iff.mp open_end)
      simp only [List.cons_append] at shorter ⊢
      rw [closingLength?, if_neg marks, shorter]
      rfl
  | case3 text short =>
      rcases text with _ | ⟨star, _ | ⟨slash, following⟩⟩
      · rfl
      · simp [closingLength?, isChar, Cluster.single]
      · exact absurd rfl (short star slash following)

theorem isFault_measureSlash_return (fault : (measureSlash text).1.isFault = true) :
    (measureSlash (text ++ [.single '\r'])).1.isFault = true := by
  cases text with
  | nil => cases fault
  | cons second text =>
      simp only [measureSlash, List.cons_append] at fault ⊢
      split at fault
      next => cases fault
      next no_slash =>
        rw [if_neg no_slash]
        split at fault
        next star =>
          rw [if_pos star]
          split at fault
          next => cases fault
          next open_end =>
            rw [closingLength?_open open_end]
            rfl
        next => cases fault

theorem isFault_measureSymbol (symbol : Token.Kind) (text : List Cluster) :
    (measureSymbol symbol text).1.isFault = false := by
  simp only [measureSymbol]
  split
  · split <;> rfl
  · rfl

/-- A fault is no less of one with a carriage return after it. -/
theorem isFault_measure_return {first : Cluster} (fault : (measure first text).1.isFault = true) :
    (measure first (text ++ [.single '\r'])).1.isFault = true := by
  rw [measure] at fault ⊢
  split at fault
  next => cases fault
  next first_visible =>
  rw [if_neg first_visible]
  split at fault
  next quote =>
    rw [if_pos quote]
    exact isFault_measureString_return fault
  next no_quote =>
  rw [if_neg no_quote]
  split at fault
  next => cases fault
  next no_digit =>
  rw [if_neg no_digit]
  split at fault
  next => cases fault
  next no_letter =>
  rw [if_neg no_letter]
  cases symbol_eq : symbol? first with
  | none => rfl
  | some symbol =>
      rw [symbol_eq] at fault
      cases symbol with
      | slash => exact isFault_measureSlash_return fault
      | _ => exact absurd fault (by rw [isFault_measureSymbol]; decide)

theorem measureSlash_comment_return {length : Nat}
    (read : measureSlash text = (.lineComment, length)) :
    measureSlash (text ++ [.single '\r']) = (.lineComment, length) ∨
      length = text.length ∧
        measureSlash (text ++ [.single '\r']) = (.lineComment, length + 1) := by
  cases text with
  | nil => cases read
  | cons second text =>
      simp only [measureSlash, List.cons_append] at read ⊢
      split at read
      next slash =>
        cases read
        rw [if_pos slash, List.takeWhile_append]
        split
        next whole =>
          refine .inr ⟨by rw [whole, List.length_cons], ?_⟩
          rw [List.length_append, whole]
          rfl
        next => exact .inl rfl
      next =>
        split at read
        · split at read <;> cases read
        · cases read

/-- A comment to the end of the line takes in a carriage return if it reaches it. -/
theorem measure_comment_return {first : Cluster} {length : Nat}
    (read : measure first text = (.lineComment, length)) :
    measure first (text ++ [.single '\r']) = (.lineComment, length) ∨
      length = text.length ∧
        measure first (text ++ [.single '\r']) = (.lineComment, length + 1) := by
  rw [measure] at read ⊢
  split at read
  next => cases read
  next first_visible =>
  rw [if_neg first_visible]
  split at read
  next => cases measureString_of_sound read rfl
  next no_quote =>
  rw [if_neg no_quote]
  split at read
  next => cases read
  next no_digit =>
  rw [if_neg no_digit]
  split at read
  next => cases read
  next no_letter =>
  rw [if_neg no_letter]
  cases symbol_eq : symbol? first with
  | none =>
      rw [symbol_eq] at read
      cases read
  | some symbol =>
      rw [symbol_eq] at read
      cases symbol with
      | slash => exact measureSlash_comment_return read
      | _ =>
          simp only [measureSymbol] at read
          split at read
          · split at read <;> cases read
          · cases read

end Scriptlet.Segment
