import Mathlib.Data.List.DropRight
import Mathlib.Data.List.Forall2
import Scriptlet.CommandLine

/-!
# The lines of an input

An input is split at line feeds before its bytes are read as text. In a text the byte of a line feed
belongs to no other character, so lines joined by line feeds come back as they were, up to what is
trimmed from their ends.
-/

namespace Scriptlet.CommandLine

/-- The bytes of a text. -/
def bytesOf (text : String) : List UInt8 :=
  text.toUTF8.data.toList

theorem decode_bytesOf (text : String) : decode (bytesOf text) = .ok text := by
  have bytes_eq : (⟨(bytesOf text).toArray⟩ : ByteArray) = text.toByteArray := rfl
  have valid : text.toByteArray.IsValidUTF8 := text.isValidUTF8
  simp only [decode, bytes_eq, String.fromUTF8?, valid, dite_true]
  rfl

theorem bytesOf_append (left right : String) :
    bytesOf (left ++ right) = bytesOf left ++ bytesOf right := by
  simp [bytesOf, String.toByteArray_append, ByteArray.data_append]

theorem bytesOf_eq_flatMap (text : String) :
    bytesOf text = text.toList.flatMap String.utf8EncodeChar := by
  rw [bytesOf, String.toUTF8_eq_toByteArray, ← String.utf8Encode_toList, List.utf8Encode,
    List.data_toByteArray]

/-- The byte of a line feed belongs to no other character. -/
theorem eq_feed_of_mem {char : Char} (feed_mem : 10 ∈ String.utf8EncodeChar char) :
    char = '\n' := by
  have ten_eq {number : Nat} (same : 10 = UInt8.ofNat number) : number % 256 = 10 := by
    rw [← UInt8.toNat_ofNat', ← same]
    rfl
  rw [String.utf8EncodeChar] at feed_mem
  split at feed_mem
  next small =>
    have point_eq := ten_eq (List.mem_singleton.mp feed_mem)
    apply Char.toNat_inj.mp
    change char.val.toNat = 10
    omega
  next =>
    -- The bytes of longer encodings have their highest bit set.
    split at feed_mem
    · simp only [List.mem_cons, List.not_mem_nil, or_false] at feed_mem
      rcases feed_mem with same | same <;> have impossible := ten_eq same <;> omega
    · split at feed_mem
      · simp only [List.mem_cons, List.not_mem_nil, or_false] at feed_mem
        rcases feed_mem with same | same | same <;> have impossible := ten_eq same <;> omega
      · simp only [List.mem_cons, List.not_mem_nil, or_false] at feed_mem
        rcases feed_mem with same | same | same | same <;> have impossible := ten_eq same <;> omega

theorem feed_not_mem_bytesOf {text : String} (no_feed : '\n' ∉ text.toList) :
    10 ∉ bytesOf text := by
  rw [bytesOf_eq_flatMap]
  intro feed_mem
  rcases List.mem_flatMap.mp feed_mem with ⟨char, char_mem, feed_mem⟩
  exact no_feed (eq_feed_of_mem feed_mem ▸ char_mem)

theorem splitLines_feed {line : List UInt8} (no_feed : 10 ∉ line) (later : List UInt8) :
    splitLines (line ++ 10 :: later) = (line ++ [10]) :: splitLines later := by
  induction line with
  | nil => rfl
  | cons byte line ih =>
      rw [List.mem_cons, not_or] at no_feed
      simp only [List.cons_append, splitLines, if_neg (Ne.symm no_feed.1), ih no_feed.2]

theorem splitLines_last {line : List UInt8} (no_feed : 10 ∉ line) (some_byte : line ≠ []) :
    splitLines line = [line] := by
  induction line with
  | nil => exact absurd rfl some_byte
  | cons byte line ih =>
      rw [List.mem_cons, not_or] at no_feed
      rw [splitLines, if_neg (Ne.symm no_feed.1)]
      cases line with
      | nil => rfl
      | cons next line => rw [ih no_feed.2 (List.cons_ne_nil _ _)]

theorem trimEnd_eq (line : String) :
    trimEnd line
      = String.ofList (line.toList.rdropWhile fun char => char = '\r' || char = '\n') :=
  rfl

theorem trimEnd_feed (line : String) : trimEnd (line ++ "\n") = trimEnd line := by
  have chars_eq : (line ++ "\n").toList = line.toList ++ ['\n'] := by simp
  rw [trimEnd_eq, trimEnd_eq, chars_eq, List.rdropWhile_concat_pos _ _ _ (by decide)]

/-- Bytes that are read as a line, up to what is trimmed from its end. -/
def Shows (bytes : List UInt8) (line : String) : Prop :=
  ∃ text, decode bytes = .ok text ∧ trimEnd text = trimEnd line

/-- Lines joined by line feeds are split into these lines. -/
theorem shows_joined {lines : List String} (no_feed : ∀ line ∈ lines, '\n' ∉ line.toList)
    (some_char : ∀ line ∈ lines, line ≠ "") :
    List.Forall₂ Shows (splitLines (bytesOf ("\n".intercalate lines))) lines := by
  induction lines with
  | nil => exact .nil
  | cons line later ih =>
      rw [List.forall_mem_cons] at no_feed some_char
      have line_no_feed := feed_not_mem_bytesOf no_feed.1
      cases later with
      | nil =>
          have some_byte : bytesOf line ≠ [] := by
            intro no_byte
            have decoded := decode_bytesOf line
            rw [no_byte, show ([] : List UInt8) = bytesOf "" from rfl, decode_bytesOf] at decoded
            exact some_char.1 (Except.ok.inj decoded).symm
          rw [String.intercalate_singleton, splitLines_last line_no_feed some_byte]
          exact .cons ⟨line, decode_bytesOf line, rfl⟩ .nil
      | cons next later =>
          have bytes_eq : bytesOf ("\n".intercalate (line :: next :: later))
              = bytesOf line ++ 10 :: bytesOf ("\n".intercalate (next :: later)) := by
            rw [String.intercalate_cons_cons, bytesOf_append, bytesOf_append, List.append_assoc]
            rfl
          rw [bytes_eq, splitLines_feed line_no_feed]
          refine .cons ⟨line ++ "\n", ?_, trimEnd_feed line⟩ (ih no_feed.2 some_char.2)
          have feed_eq : bytesOf line ++ [10] = bytesOf (line ++ "\n") := by
            rw [bytesOf_append]
            rfl
          rw [feed_eq, decode_bytesOf]

end Scriptlet.CommandLine
