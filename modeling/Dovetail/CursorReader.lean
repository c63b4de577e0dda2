import Mathlib.Tactic

/-!
# Reading a buffer through a cursor

A reader takes symbols from the front of what is left of a fixed buffer, and
either returns a value with the cursor moved forward or fails.  Slicing
outside the buffer is kept apart from a refusal: it is what a bounds-checked
language turns into a panic.

`Reads reader language` states what a reader accepts without mentioning
positions: the words of `language a` are the words that read as `a`.  The
rules below derive it for a composed reader from its parts.
-/

namespace CursorReader

variable {σ ε α β : Type}

structure Cursor (σ : Type) where
  buffer : List σ
  position : ℕ

inductive Fault (ε : Type) where
  | refused (reason : ε)
  | outOfBounds
  deriving DecidableEq

abbrev Reader (σ ε α : Type) :=
  StateT (Cursor σ) (Except (Fault ε)) α

namespace Cursor

def rest (cursor : Cursor σ) : List σ :=
  cursor.buffer.drop cursor.position

def InBounds (cursor : Cursor σ) : Prop :=
  cursor.position ≤ cursor.buffer.length

def advance (cursor : Cursor σ) (count : ℕ) : Cursor σ :=
  { cursor with position := cursor.position + count }

/-- `buffer[position..stop]`, with the bounds the language checks. -/
def slice (cursor : Cursor σ) (stop : ℕ) :
    Except (Fault ε) (List σ) :=
  if cursor.position ≤ stop ∧ stop ≤ cursor.buffer.length then
    .ok ((cursor.buffer.take stop).drop cursor.position)
  else
    .error .outOfBounds

@[simp] theorem advance_buffer (cursor : Cursor σ) (count : ℕ) :
    (cursor.advance count).buffer = cursor.buffer := rfl

@[simp] theorem advance_position (cursor : Cursor σ) (count : ℕ) :
    (cursor.advance count).position = cursor.position + count := rfl

@[simp] theorem advance_zero (cursor : Cursor σ) :
    cursor.advance 0 = cursor := rfl

@[simp] theorem advance_advance (cursor : Cursor σ) (first second : ℕ) :
    (cursor.advance first).advance second =
      cursor.advance (first + second) := by
  simp [advance, Nat.add_assoc]

@[simp] theorem rest_advance (cursor : Cursor σ) (count : ℕ) :
    (cursor.advance count).rest = cursor.rest.drop count := by
  simp [rest, advance, List.drop_drop]

theorem InBounds.advance {cursor : Cursor σ} (hin : cursor.InBounds)
    {count : ℕ} (hcount : count ≤ cursor.rest.length) :
    (cursor.advance count).InBounds := by
  simp only [rest, List.length_drop] at hcount
  unfold InBounds at hin ⊢
  simp only [advance_position, advance_buffer]
  omega

theorem rest_length (cursor : Cursor σ) :
    cursor.rest.length = cursor.buffer.length - cursor.position := by
  simp [rest]

/-- At the end of the buffer nothing is left. -/
theorem InBounds.rest_eq_nil_iff {cursor : Cursor σ}
    (hin : cursor.InBounds) :
    cursor.rest = [] ↔ cursor.position = cursor.buffer.length := by
  unfold InBounds at hin
  rw [← List.length_eq_zero_iff, rest, List.length_drop]
  omega

end Cursor

/-- From any position inside the buffer, `reader` never slices outside it,
and it returns `a` exactly after consuming a word of `language a`. -/
structure Reads (reader : Reader σ ε α) (language : α → List σ → Prop) :
    Prop where
  safe : ∀ cursor : Cursor σ, cursor.InBounds →
    reader cursor ≠ .error .outOfBounds
  sound : ∀ cursor : Cursor σ, cursor.InBounds → ∀ a after,
    reader cursor = .ok (a, after) →
      ∃ word, language a word ∧ word <+: cursor.rest ∧
        after = cursor.advance word.length
  complete : ∀ cursor : Cursor σ, cursor.InBounds → ∀ a word,
    language a word → word <+: cursor.rest →
      reader cursor = .ok (a, cursor.advance word.length)

theorem Reads.congr {reader : Reader σ ε α}
    {language language' : α → List σ → Prop}
    (hreads : Reads reader language)
    (heq : ∀ a word, language a word ↔ language' a word) :
    Reads reader language' := by
  have hlanguage : language = language' := by
    funext a word
    exact propext (heq a word)
  exact hlanguage ▸ hreads

theorem Reads.pure (a : α) :
    Reads (Pure.pure a : Reader σ ε α) (fun b word => b = a ∧ word = []) where
  safe := by
    intro cursor _ hbad
    cases hbad
  sound := by
    intro cursor _ b after hok
    cases hok
    exact ⟨[], ⟨rfl, rfl⟩, List.nil_prefix, rfl⟩
  complete := by
    rintro cursor _ b word ⟨rfl, rfl⟩ _
    rfl

/-- A reader that always refuses accepts nothing. -/
theorem Reads.refuse (reason : ε) :
    Reads (throw (.refused reason) : Reader σ ε α) (fun _ _ => False) where
  safe := by
    intro cursor _ hbad
    cases hbad
  sound := by
    intro cursor _ b after hok
    cases hok
  complete := by
    intro cursor _ b word hword
    exact hword.elim

theorem bind_apply (reader : Reader σ ε α) (next : α → Reader σ ε β)
    (cursor : Cursor σ) :
    (reader >>= next) cursor =
      match reader cursor with
      | .ok (a, after) => next a after
      | .error fault => .error fault := by
  change (reader cursor >>= fun p => next p.1 p.2) = _
  cases reader cursor <;> rfl

/-- The words of a sequence are the concatenations.  Only values the first
reader can return have to be continued. -/
theorem Reads.bind {reader : Reader σ ε α} {next : α → Reader σ ε β}
    {language : α → List σ → Prop} {language' : α → β → List σ → Prop}
    (hreads : Reads reader language)
    (hnext : ∀ a front, language a front → Reads (next a) (language' a)) :
    Reads (reader >>= next) (fun b word =>
      ∃ a front back, language a front ∧ language' a b back ∧
        word = front ++ back) where
  safe := by
    intro cursor hin hbad
    rw [bind_apply] at hbad
    cases hfirst : reader cursor with
    | error fault =>
        rw [hfirst] at hbad
        cases fault with
        | refused reason => cases hbad
        | outOfBounds => exact hreads.safe cursor hin hfirst
    | ok result =>
        obtain ⟨a, after⟩ := result
        rw [hfirst] at hbad
        obtain ⟨front, hfront, hopens, rfl⟩ :=
          hreads.sound cursor hin a after hfirst
        exact (hnext a front hfront).safe _
          (hin.advance hopens.length_le) hbad
  sound := by
    intro cursor hin b after hok
    rw [bind_apply] at hok
    cases hfirst : reader cursor with
    | error fault =>
        rw [hfirst] at hok
        cases hok
    | ok result =>
        obtain ⟨a, middle⟩ := result
        rw [hfirst] at hok
        obtain ⟨front, hfront, ⟨tail, htail⟩, rfl⟩ :=
          hreads.sound cursor hin a middle hfirst
        have hmiddle : (cursor.advance front.length).InBounds :=
          hin.advance (List.IsPrefix.length_le ⟨tail, htail⟩)
        obtain ⟨back, hback, hbackPrefix, rfl⟩ :=
          (hnext a front hfront).sound _ hmiddle b after hok
        have htailRest :
            (cursor.advance front.length).rest = tail := by
          rw [Cursor.rest_advance, ← htail, List.drop_left]
        rw [htailRest] at hbackPrefix
        refine ⟨front ++ back, ⟨a, front, back, hfront, hback, rfl⟩, ?_, ?_⟩
        · rw [← htail]
          exact (List.prefix_append_right_inj front).mpr hbackPrefix
        · simp
  complete := by
    rintro cursor hin b word ⟨a, front, back, hfront, hback, rfl⟩ hopens
    have hfrontPrefix : front <+: cursor.rest :=
      (List.prefix_append front back).trans hopens
    have hfirst := hreads.complete cursor hin a front hfront hfrontPrefix
    have hbackPrefix :
        back <+: (cursor.advance front.length).rest := by
      obtain ⟨tail, htail⟩ := hopens
      refine ⟨tail, ?_⟩
      rw [Cursor.rest_advance, ← htail, List.append_assoc, List.drop_left]
    rw [bind_apply, hfirst]
    have hsecond := (hnext a front hfront).complete _
      (hin.advance hfrontPrefix.length_le) b back hback hbackPrefix
    simpa using hsecond

theorem Reads.map {reader : Reader σ ε α}
    {language : α → List σ → Prop} (hreads : Reads reader language)
    (f : α → β) :
    Reads (f <$> reader)
      (fun b word => ∃ a, language a word ∧ b = f a) := by
  have hbind := hreads.bind fun a _ _ => Reads.pure (σ := σ) (ε := ε) (f a)
  rw [← bind_pure_comp]
  apply hbind.congr
  intro b word
  constructor
  · rintro ⟨a, front, back, hfront, ⟨rfl, rfl⟩, rfl⟩
    exact ⟨a, by simpa using hfront, rfl⟩
  · rintro ⟨a, hword, rfl⟩
    exact ⟨a, word, [], hword, ⟨rfl, rfl⟩, by simp⟩

/-- A check before a reader narrows its language. -/
theorem Reads.guard {reader : Reader σ ε α}
    {language : α → List σ → Prop} (hreads : Reads reader language)
    (c : Prop) [Decidable c] (reason : ε) :
    Reads (if c then reader else throw (.refused reason))
      (fun a word => c ∧ language a word) := by
  by_cases hc : c
  · simpa [hc] using hreads
  · simpa [hc] using Reads.refuse (σ := σ) (α := α) reason

/-- Taking `count` symbols through a bounds check reads exactly the words of
that length. -/
def take (reason : ε) (count : ℕ) : Reader σ ε (List σ) := fun cursor => do
  let stop := cursor.position + count
  if stop ≤ cursor.buffer.length then
    let symbols ← cursor.slice stop
    return (symbols, { cursor with position := stop })
  else
    throw (.refused reason)

theorem take_apply (reason : ε) (count : ℕ) (cursor : Cursor σ) :
    take reason count cursor =
      if cursor.position + count ≤ cursor.buffer.length then
        .ok (cursor.rest.take count, cursor.advance count)
      else .error (.refused reason) := by
  unfold take
  by_cases hfits : cursor.position + count ≤ cursor.buffer.length
  · have hslice : cursor.position ≤ cursor.position + count := by omega
    simp only [hfits, if_true, Cursor.slice, hslice, true_and]
    rw [List.drop_take]
    simp [Cursor.rest, Cursor.advance, bind, Except.bind, pure, Except.pure]
  · simp [hfits, throw, throwThe, MonadExceptOf.throw]

theorem Reads.take (reason : ε) (count : ℕ) :
    Reads (CursorReader.take reason count : Reader σ ε (List σ))
      (fun symbols word => symbols = word ∧ word.length = count) where
  safe := by
    intro cursor _ hbad
    rw [take_apply] at hbad
    split at hbad <;> cases hbad
  sound := by
    intro cursor hin symbols after hok
    rw [take_apply] at hok
    split at hok
    next hfits =>
      cases hok
      have hlength : (cursor.rest.take count).length = count := by
        rw [List.length_take, Cursor.rest, List.length_drop]
        omega
      exact ⟨_, ⟨rfl, hlength⟩, List.take_prefix _ _, by rw [hlength]⟩
    next => cases hok
  complete := by
    rintro cursor hin symbols word ⟨rfl, rfl⟩ hopens
    have hlength := hopens.length_le
    rw [Cursor.rest_length] at hlength
    have hfits :
        cursor.position + symbols.length ≤ cursor.buffer.length := by
      have := hin
      unfold Cursor.InBounds at this
      omega
    rw [take_apply, if_pos hfits, List.prefix_iff_eq_take.mp hopens]
    simp

/-- Reading a whole buffer from its start, with nothing left over. -/
theorem Reads.whole {reader : Reader σ ε α}
    {language : α → List σ → Prop} (hreads : Reads reader language)
    (buffer : List σ) (a : α) :
    (∃ after, reader ⟨buffer, 0⟩ = .ok (a, after) ∧
        after.position = after.buffer.length) ↔ language a buffer := by
  have hin : (⟨buffer, 0⟩ : Cursor σ).InBounds := Nat.zero_le _
  have hrest : (⟨buffer, 0⟩ : Cursor σ).rest = buffer := rfl
  constructor
  · rintro ⟨after, hok, hend⟩
    obtain ⟨word, hword, hopens, rfl⟩ := hreads.sound _ hin a after hok
    have hlength : word.length = buffer.length := by simpa using hend
    rw [hrest] at hopens
    rwa [hopens.eq_of_length hlength] at hword
  · intro hword
    refine ⟨_, hreads.complete _ hin a buffer hword ?_, ?_⟩
    · rw [hrest]
    · simp

end CursorReader
