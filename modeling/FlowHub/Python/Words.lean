import FlowHub.Python.Text

namespace FlowHub.Python

open List

variable {u : Unicode}

/-- A word: some text without whitespace. -/
def Word (u : Unicode) (text : List Char) : Prop := text ≠ [] ∧ ∀ c ∈ text, u.isSpace c = false

/-- Words with one blank between each two. -/
abbrev spaced (ws : List (List Char)) : List Char := List.intercalate [' '] ws

theorem spaced_cons_cons (w v : List Char) (ws : List (List Char)) :
    spaced (w :: v :: ws) = w ++ ' ' :: spaced (v :: ws) := by
  simp [intercalate]

@[simp] theorem spaced_singleton (w : List Char) : spaced [w] = w := by
  simp

variable {text w : List Char}

/-- The words of a text come apart at a blank. -/
theorem words_word_append (hw : Word u w) (hspace : u.isSpace ' ' = true) :
    words u (w ++ ' ' :: text) = w :: words u text := by
  have hblank : words u (' ' :: text) = words u text := by
    rw [words.eq_def]
    simp [hspace]
  obtain ⟨hne, hvisible⟩ := hw
  induction w with
  | nil => exact absurd rfl hne
  | cons c rest ih =>
    rw [forall_mem_cons] at hvisible
    obtain ⟨hc, hrest⟩ := hvisible
    cases rest with
    | nil =>
      rw [singleton_append, words.eq_def]
      simp only [hc, hblank]
      cases words u text with
      | nil => rfl
      | cons word more => simp [hspace]
    | cons d more =>
      have hwords := ih (cons_ne_nil d more) hrest
      have hd := hrest d mem_cons_self
      rw [cons_append, cons_append, words.eq_def]
      rw [cons_append] at hwords
      simp [hc, hwords, hd]

theorem words_of_visible (hne : text ≠ []) (h : ∀ c ∈ text, u.isSpace c = false) : words u text = [text] := by
  induction text with
  | nil => exact absurd rfl hne
  | cons c rest ih =>
    rw [forall_mem_cons] at h
    obtain ⟨hc, hrest⟩ := h
    cases rest with
    | nil => simp [words, hc]
    | cons d more =>
      have hwords := ih (cons_ne_nil d more) hrest
      have hd := hrest d mem_cons_self
      unfold words
      simp [hwords, hc, hd]

variable {ws : List (List Char)}

theorem words_spaced (h : ∀ w ∈ ws, Word u w) (hspace : u.isSpace ' ' = true) : words u (spaced ws) = ws := by
  induction ws with
  | nil => rfl
  | cons w rest ih =>
    rw [forall_mem_cons] at h
    cases rest with
    | nil => rw [spaced_singleton, words_of_visible h.1.1 h.1.2]
    | cons v more => rw [spaced_cons_cons, words_word_append h.1 hspace, ih h.2]

/-- What `split` gives are words. -/
theorem word_of_mem_words (h : w ∈ words u text) : Word u w := by
  induction text generalizing w with
  | nil => simp [words] at h
  | cons c rest ih =>
    rw [words.eq_def] at h
    by_cases hc : u.isSpace c = true
    · simp only [hc, if_true] at h
      exact ih h
    have hvisible : u.isSpace c = false := Bool.eq_false_iff.mpr hc
    have hone : Word u [c] := ⟨cons_ne_nil c [], by simpa using hvisible⟩
    simp only [hvisible, Bool.false_eq_true, if_false] at h
    split at h
    · rename_i d tail word more hwords
      have hword : Word u word := ih (by rw [hwords]; exact mem_cons_self)
      have hmore : ∀ v ∈ more, Word u v := by
        intro v hv
        exact ih (by rw [hwords]; exact mem_cons_of_mem _ hv)
      by_cases hd : u.isSpace d = true
      · simp only [hd, if_true, mem_cons] at h
        rcases h with rfl | rfl | hv
        · exact hone
        · exact hword
        · exact hmore w hv
      · simp only [hd, if_false, mem_cons, Bool.false_eq_true] at h
        rcases h with rfl | hv
        · exact ⟨cons_ne_nil c word, by simpa [hvisible] using hword.2⟩
        · exact hmore w hv
    · rename_i more _
      rcases mem_cons.mp h with rfl | hv
      · exact hone
      · exact ih hv

theorem Word.head? (h : Word u w) : w.head?.any u.isSpace = false := by
  cases w with
  | nil => rfl
  | cons c rest => simpa using h.2 c mem_cons_self

theorem spaced_head? (h : ∀ w ∈ ws, Word u w) : (spaced ws).head?.any u.isSpace = false := by
  cases ws with
  | nil => rfl
  | cons w rest =>
    have hw := h w mem_cons_self
    cases rest with
    | nil => simpa using hw.head?
    | cons v more =>
      rw [spaced_cons_cons, head?_append_of_ne_nil _ hw.1]
      exact hw.head?

theorem spaced_ne_nil (ws : List (List Char)) (hw : w ≠ []) : spaced (w :: ws) ≠ [] := by
  cases ws with
  | nil => simpa using hw
  | cons v more => simp

theorem spaced_getLast? (h : ∀ w ∈ ws, Word u w) : (spaced ws).getLast?.any u.isSpace = false := by
  induction ws with
  | nil => rfl
  | cons w rest ih =>
    rw [forall_mem_cons] at h
    cases rest with
    | nil =>
      rw [spaced_singleton]
      cases hlast : w.getLast? with
      | none => rfl
      | some c => simpa using h.1.2 c (mem_of_getLast? hlast)
    | cons v more =>
      have hne : spaced (v :: more) ≠ [] := spaced_ne_nil more (h.2 v mem_cons_self).1
      rw [spaced_cons_cons, getLast?_append_of_ne_nil _ (cons_ne_nil _ _), getLast?_cons_of_ne_nil hne]
      exact ih h.2

theorem strip_spaced (h : ∀ w ∈ ws, Word u w) : strip u (spaced ws) = spaced ws :=
  strip_of_ends (spaced_head? h) (spaced_getLast? h)

/-- `strip` takes a blank at the end away. -/
theorem strip_append_blank (hspace : u.isSpace ' ' = true)
    (hhead : text.head?.any u.isSpace = false) (hne : text ≠ []) :
    strip u (text ++ [' ']) = strip u text := by
  have hdrop : ∀ l : List Char, (text ++ l).dropWhile u.isSpace = text ++ l := by
    intro l
    apply dropWhile_of_head
    rwa [head?_append_of_ne_nil _ hne]
  have htext := hdrop []
  rw [append_nil] at htext
  unfold strip
  rw [hdrop, htext, reverse_append, reverse_singleton, singleton_append, dropWhile_cons_of_pos hspace]

theorem strip_head? (text : List Char) : (strip u text).head?.any u.isSpace = false := by
  have hprefix : strip u text <+: text.dropWhile u.isSpace := by
    unfold strip
    have hsuffix := dropWhile_suffix u.isSpace (l := (text.dropWhile u.isSpace).reverse)
    simpa using reverse_prefix.mpr hsuffix
  cases hstrip : strip u text with
  | nil => rfl
  | cons c rest =>
    rw [hstrip] at hprefix
    obtain ⟨tail, htail⟩ := hprefix
    have hc := head?_dropWhile_not u.isSpace text
    rw [← htail] at hc
    simpa using hc

@[simp] theorem strip_strip (text : List Char) : strip u (strip u text) = strip u text :=
  strip_of_ends (strip_head? text) (strip_getLast? text)

/-- The beginning of spaced words is spaced words, it may be with a blank after them. -/
theorem take_spaced (h : ∀ w ∈ ws, Word u w) (n : Nat) : ∃ vs : List (List Char), (∀ v ∈ vs, Word u v) ∧
      ((spaced ws).take n = spaced vs ∨ (vs ≠ [] ∧ (spaced ws).take n = spaced vs ++ [' '])) := by
  have hbeginning : ∀ w, Word u w → ∀ k, ∃ vs : List (List Char), (∀ v ∈ vs, Word u v) ∧
      w.take k = spaced vs := by
    intro w hw k
    by_cases hk : w.take k = []
    · exact ⟨[], by simp, by simpa using hk⟩
    refine ⟨[w.take k], ?_, by simp⟩
    intro v hv
    obtain rfl := mem_singleton.mp hv
    exact ⟨hk, fun c hc => hw.2 c (mem_of_mem_take hc)⟩
  induction ws generalizing n with
  | nil => exact ⟨[], by simp, .inl (by simp)⟩
  | cons w rest ih =>
    rw [forall_mem_cons] at h
    cases rest with
    | nil =>
      obtain ⟨vs, hvs, htake⟩ := hbeginning w h.1 n
      exact ⟨vs, hvs, .inl (by rwa [spaced_singleton])⟩
    | cons v more =>
      rw [spaced_cons_cons]
      by_cases hshort : n ≤ w.length
      · obtain ⟨vs, hvs, htake⟩ := hbeginning w h.1 n
        refine ⟨vs, hvs, .inl ?_⟩
        rwa [take_append_of_le_length hshort]
      · have hlen : n - w.length = (n - w.length - 1) + 1 := by omega
        obtain ⟨vs, hvs, htake⟩ := ih h.2 (n - w.length - 1)
        have hwhole : (w ++ ' ' :: spaced (v :: more)).take n =
            w ++ ' ' :: (spaced (v :: more)).take (n - w.length - 1) := by
          rw [take_append, take_of_length_le (by omega), hlen, take_succ_cons]
          simp
        cases vs with
        | nil =>
          have hnil : (spaced (v :: more)).take (n - w.length - 1) = [] := by
            rcases htake with htake | ⟨hne, -⟩
            · simpa using htake
            · exact absurd rfl hne
          refine ⟨[w], by simpa using h.1, .inr ⟨by simp, ?_⟩⟩
          rw [hwhole, hnil, spaced_singleton]
        | cons x xs =>
          refine ⟨w :: x :: xs, forall_mem_cons.mpr ⟨h.1, hvs⟩, ?_⟩
          rcases htake with htake | ⟨-, htake⟩
          · exact .inl (by rw [hwhole, htake, spaced_cons_cons])
          · exact .inr ⟨by simp, by rw [hwhole, htake, spaced_cons_cons]; simp⟩

end FlowHub.Python
