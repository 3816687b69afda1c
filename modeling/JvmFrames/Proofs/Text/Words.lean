import JvmFrames.Text.Blank
import Mathlib.Data.List.TakeWhile

/-!
Cutting a text that was put together. Trimming takes the blanks off around a text that has none at
its own ends, and words with one space between them are found again.
-/

namespace JvmFrames.Text

def Tight (text : List Char) : Prop :=
  (∀ first ∈ text.head?, isBlank first = false) ∧ ∀ last ∈ text.getLast?, isBlank last = false

structure IsWord (text : List Char) : Prop where
  nonempty : text ≠ []
  seen : ∀ character ∈ text, isBlank character = false

theorem dropWhile_isBlank_around {before text after : List Char}
    (blankBefore : ∀ character ∈ before, isBlank character = true)
    (starts : ∀ first ∈ text.head?, isBlank first = false)
    (blankAfter : ∀ character ∈ after, isBlank character = true) :
    ∃ rest, (before ++ text ++ after).dropWhile isBlank = text ++ rest ∧
      ∀ character ∈ rest, isBlank character = true := by
  rw [List.append_assoc, List.dropWhile_append_of_pos blankBefore]
  cases text with
  | nil => exact ⟨[], List.dropWhile_eq_nil_iff.mpr blankAfter, by simp⟩
  | cons first rest =>
      have seen := starts first rfl
      exact ⟨after, by simp [seen], blankAfter⟩

theorem trim_around {text : List Char} (before after : List Char)
    (blankBefore : ∀ character ∈ before, isBlank character = true) (tight : Tight text)
    (blankAfter : ∀ character ∈ after, isBlank character = true) :
    trim (before ++ text ++ after) = text := by
  obtain ⟨rest, front, blankRest⟩ := dropWhile_isBlank_around blankBefore tight.1 blankAfter
  have ends : ∀ first ∈ text.reverse.head?, isBlank first = false := by
    rw [List.head?_reverse]
    exact tight.2
  -- What is left behind the text stands before it in reverse.
  have back : (rest.reverse ++ text.reverse).dropWhile isBlank = text.reverse := by
    rw [List.dropWhile_append_of_pos (by simpa using blankRest)]
    cases reversed : text.reverse with
    | nil => rfl
    | cons last others => simp [ends last (by simp [reversed])]
  rw [trim, front, List.reverse_append, back, List.reverse_reverse]

theorem trim_eq_self {text : List Char} (tight : Tight text) : trim text = text := by
  simpa using trim_around [] [] (by simp) tight (by simp)

def unwords (words : List (List Char)) : List Char :=
  [' '].intercalate words

@[simp] theorem unwords_nil : unwords [] = [] :=
  rfl

@[simp] theorem unwords_singleton (word : List Char) : unwords [word] = word := by
  simp [unwords]

theorem unwords_cons_cons (first second : List Char) (rest : List (List Char)) :
    unwords (first :: second :: rest) = first ++ ' ' :: unwords (second :: rest) := by
  simp [unwords, List.intercalate_cons_cons]

theorem words_unwords {texts : List (List Char)} (isWord : ∀ text ∈ texts, IsWord text) :
    words (unwords texts) = texts := by
  induction texts with
  | nil => rfl
  | cons first rest ih =>
      obtain ⟨firstIs, restAre⟩ := List.forall_mem_cons.mp isWord
      have kept : (!first.isEmpty) = true := by simpa using firstIs.nonempty
      cases rest with
      | nil =>
          rw [unwords_singleton, words, List.splitOnP_eq_singleton firstIs.seen]
          simp [kept]
      | cons second rest =>
          have following := ih restAre
          rw [words] at following
          rw [unwords_cons_cons, words,
            List.splitOnP_append_cons_of_forall_mem firstIs.seen ' ' (by decide),
            List.filter_cons, if_pos kept, following]

theorem unwords_ne_nil {first : List Char} (nonempty : first ≠ []) (rest : List (List Char)) :
    unwords (first :: rest) ≠ [] := by
  cases rest with
  | nil => simpa using nonempty
  | cons second rest => simp [unwords_cons_cons]

theorem IsWord.tight {text : List Char} (isWord : IsWord text) : Tight text :=
  ⟨fun first starts => isWord.seen first (List.mem_of_mem_head? starts),
    fun last ends => isWord.seen last (List.mem_of_mem_getLast? ends)⟩

theorem tight_around {first last : List Char} (middle : List Char) (starts : Tight first)
    (present : first ≠ []) (ends : Tight last) (lastPresent : last ≠ []) :
    Tight (first ++ middle ++ last) := by
  constructor
  · cases first with
    | nil => contradiction
    | cons character rest => simpa using starts.1
  · rw [List.getLast?_append, List.getLast?_eq_some_getLast lastPresent]
    simpa [List.getLast?_eq_some_getLast lastPresent] using ends.2

theorem tight_unwords {texts : List (List Char)} (isWord : ∀ text ∈ texts, IsWord text) :
    Tight (unwords texts) := by
  induction texts with
  | nil => simp [Tight]
  | cons first rest ih =>
      obtain ⟨firstIs, restAre⟩ := List.forall_mem_cons.mp isWord
      cases rest with
      | nil => simpa using firstIs.tight
      | cons second rest =>
          have secondIs := restAre second List.mem_cons_self
          rw [unwords_cons_cons, List.append_cons]
          exact tight_around [' '] firstIs.tight firstIs.nonempty (ih restAre)
            (unwords_ne_nil secondIs.nonempty rest)

theorem mem_unwords {texts : List (List Char)} {character : Char}
    (member : character ∈ unwords texts) :
    character = ' ' ∨ ∃ text ∈ texts, character ∈ text := by
  induction texts with
  | nil => simp at member
  | cons first rest ih =>
      cases rest with
      | nil => exact .inr ⟨first, List.mem_cons_self, by simpa using member⟩
      | cons second rest =>
          rw [unwords_cons_cons, List.mem_append, List.mem_cons] at member
          rcases member with inFirst | isSpace | inRest
          · exact .inr ⟨first, List.mem_cons_self, inFirst⟩
          · exact .inl isSpace
          · rcases ih inRest with isSpace | ⟨text, textMember, inText⟩
            · exact .inl isSpace
            · exact .inr ⟨text, List.mem_cons_of_mem _ textMember, inText⟩

end JvmFrames.Text
