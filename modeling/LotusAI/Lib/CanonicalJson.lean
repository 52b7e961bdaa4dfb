import LotusAI.Lib.Dict
import Mathlib.Data.List.Sort
import Mathlib.Data.String.Basic

/-!
# Canonical JSON texts of flat objects

The text that `json.dumps` prints for a dictionary of texts and nulls with
sorted keys, no blanks and only ASCII characters. Two dictionaries with the same
text answer every lookup alike, so a digest of the text binds the dictionary.

The argument is that every part of the text says itself where it ends: a
character's escape, a quoted text, a value, an entry.
-/

namespace LotusAI.Lib

open List

/-! ### Self-delimiting encodings -/

section SelfDelimiting

variable {α β σ : Type*}

/-- An encoding whose end can be told from the encoding itself: whatever follows
two equal texts, they encode the same value and are followed by the same rest. -/
def SelfDelimiting (f : α → List σ) : Prop :=
  ∀ ⦃a b r s⦄, f a ++ r = f b ++ s → a = b ∧ r = s

/-- A sequence of encoded values with an end mark that begins no code. -/
def terminated (f : α → List σ) (stop : σ) : List α → List σ
  | [] => [stop]
  | a :: rest => f a ++ terminated f stop rest

variable {f : α → List σ}

theorem selfDelimiting_terminated {stop : σ} (hf : SelfDelimiting f)
    (hstop : ∀ a r, f a ++ r ≠ [] ∧ (f a ++ r).head? ≠ some stop) :
    SelfDelimiting (terminated f stop) := by
  intro as bs r s h
  induction as generalizing bs with
  | nil =>
    cases bs with
    | nil => exact ⟨rfl, by simpa [terminated] using h⟩
    | cons b rest =>
      -- the left text begins with the mark, the right one with a code
      rw [terminated, terminated, append_assoc] at h
      exact absurd (by rw [← h]; rfl) (hstop b _).2
  | cons a rest ih =>
    cases bs with
    | nil =>
      rw [terminated, terminated, append_assoc] at h
      exact absurd (by rw [h]; rfl) (hstop a _).2
    | cons b rest' =>
      rw [terminated, terminated, append_assoc, append_assoc] at h
      obtain ⟨rfl, htail⟩ := hf h
      obtain ⟨rfl, hrest⟩ := ih htail
      exact ⟨rfl, hrest⟩

/-- Two encodings, one after the other. -/
theorem SelfDelimiting.pair {g : β → List σ} (hf : SelfDelimiting f) (hg : SelfDelimiting g) :
    SelfDelimiting fun p : α × β => f p.1 ++ g p.2 := by
  rintro ⟨a, b⟩ ⟨a', b'⟩ r s h
  simp only [append_assoc] at h
  obtain ⟨rfl, hrest⟩ := hf h
  obtain ⟨rfl, hend⟩ := hg hrest
  exact ⟨rfl, hend⟩

/-- A fixed text in front changes nothing. -/
theorem SelfDelimiting.after (hf : SelfDelimiting f) (front : List σ) :
    SelfDelimiting fun a => front ++ f a := by
  intro a b r s h
  simp only [append_assoc] at h
  exact hf (append_cancel_left h)

theorem SelfDelimiting.injective (hf : SelfDelimiting f) : Function.Injective f := by
  intro a b h
  exact (hf (s := []) (by rw [h])).1

end SelfDelimiting

/-! ### Escapes -/

/-- Four hexadecimal digits. -/
def hex4 (n : ℕ) : List Char :=
  [Nat.digitChar (n / 4096 % 16), Nat.digitChar (n / 256 % 16), Nat.digitChar (n / 16 % 16),
    Nat.digitChar (n % 16)]

/-- One UTF-16 unit as a JSON escape. -/
def escapeUnit (n : ℕ) : List Char := '\\' :: 'u' :: hex4 n

/-- The UTF-16 units of a character: one, or a surrogate pair. -/
def utf16Units (c : Char) : List ℕ :=
  if c.toNat < 0x10000 then [c.toNat]
  else [0xD800 + (c.toNat - 0x10000) / 0x400, 0xDC00 + (c.toNat - 0x10000) % 0x400]

/-- The characters with an escape of two letters. -/
def shortEscape : Char → Option Char
  | '"' => some '"'
  | '\\' => some '\\'
  | '\n' => some 'n'
  | '\r' => some 'r'
  | '\t' => some 't'
  | '\x08' => some 'b'
  | '\x0c' => some 'f'
  | _ => none

/-- A character inside a quoted text, with everything outside ASCII escaped. -/
def escapeChar (c : Char) : List Char :=
  match shortEscape c with
  | some letter => ['\\', letter]
  | none => if ' ' ≤ c ∧ c ≤ '~' then [c] else (utf16Units c).flatMap escapeUnit

/-- A character inside a quoted text, with only control characters escaped. -/
def escapeVerbatim (c : Char) : List Char :=
  match shortEscape c with
  | some letter => ['\\', letter]
  | none => if c < ' ' then (utf16Units c).flatMap escapeUnit else [c]

theorem mod_eq_of_digitChar_eq {m n : ℕ}
    (h : Nat.digitChar (m % 16) = Nat.digitChar (n % 16)) : m % 16 = n % 16 := by
  have hall : ∀ a b : Fin 16, Nat.digitChar a = Nat.digitChar b → a = b := by decide
  exact congrArg Fin.val (hall ⟨m % 16, by omega⟩ ⟨n % 16, by omega⟩ h)

variable {r s : List Char}

theorem escapeUnit_append_inj {m n : ℕ} (hm : m < 0x10000) (hn : n < 0x10000) (h : escapeUnit m ++ r = escapeUnit n ++ s) : m = n ∧ r = s := by
  simp only [escapeUnit, hex4, cons_append, nil_append, cons.injEq, true_and] at h
  obtain ⟨h₃, h₂, h₁, h₀, hrest⟩ := h
  have e₃ := mod_eq_of_digitChar_eq h₃
  have e₂ := mod_eq_of_digitChar_eq h₂
  have e₁ := mod_eq_of_digitChar_eq h₁
  have e₀ := mod_eq_of_digitChar_eq h₀
  exact ⟨by omega, hrest⟩

variable {c : Char} {escape : Char → List Char}

/-- No character is a surrogate, so one unit is never mistaken for half of a pair. -/
theorem utf16Units_append_inj {d : Char}
    (h : (utf16Units c).flatMap escapeUnit ++ r = (utf16Units d).flatMap escapeUnit ++ s) :
    c = d ∧ r = s := by
  have hc : c.toNat < 0xD800 ∨ 0xDFFF < c.toNat ∧ c.toNat < 0x110000 := c.valid
  have hd : d.toNat < 0xD800 ∨ 0xDFFF < d.toNat ∧ d.toNat < 0x110000 := d.valid
  unfold utf16Units at h
  split_ifs at h with hcb hdb hdb
  all_goals
    obtain ⟨hfirst, hrest⟩ := escapeUnit_append_inj (by omega) (by omega) h
  · exact ⟨Char.toNat_inj.mp hfirst, hrest⟩
  · omega
  · omega
  · obtain ⟨hsecond, hend⟩ := escapeUnit_append_inj (by omega) (by omega) hrest
    exact ⟨Char.toNat_inj.mp (by omega), hend⟩

theorem shortEscape_inj {d letter : Char} (hc : shortEscape c = some letter)
    (hd : shortEscape d = some letter) : c = d := by
  unfold shortEscape at hc hd
  split at hc <;> cases hc <;> split at hd <;> first | rfl | simp at hd

theorem shortEscape_ne_u {letter : Char} (hc : shortEscape c = some letter) : letter ≠ 'u' := by
  unfold shortEscape at hc
  split at hc <;> cases hc <;> decide

theorem ne_backslash (hc : shortEscape c = none) : c ≠ '\\' := by
  rintro rfl
  cases hc

/-- The three shapes of an escape, told apart by their first two letters. -/
inductive Escaped (c : Char) : List Char → Prop
  | short (letter : Char) (escape : shortEscape c = some letter) : Escaped c ['\\', letter]
  | plain (noEscape : shortEscape c = none) : Escaped c [c]
  | units (noEscape : shortEscape c = none) : Escaped c ((utf16Units c).flatMap escapeUnit)

theorem escaped_escapeChar (c : Char) : Escaped c (escapeChar c) := by
  unfold escapeChar
  split
  · exact .short _ ‹_›
  · split_ifs
    · exact .plain ‹_›
    · exact .units ‹_›

theorem escaped_escapeVerbatim (c : Char) : Escaped c (escapeVerbatim c) := by
  unfold escapeVerbatim
  split
  · exact .short _ ‹_›
  · split_ifs
    · exact .units ‹_›
    · exact .plain ‹_›

theorem exists_flatMap_escapeUnit (c : Char) :
    ∃ rest, (utf16Units c).flatMap escapeUnit = '\\' :: 'u' :: rest := by
  unfold utf16Units
  split_ifs <;> simp [escapeUnit]

/-- Escapes of these shapes can be read off the front of a text. -/
theorem selfDelimiting_of_escaped (hescape : ∀ c, Escaped c (escape c)) :
    SelfDelimiting escape := by
  intro c d r s h
  have hc := hescape c
  have hd := hescape d
  generalize escape c = x at h hc
  generalize escape d = y at h hd
  cases hc with
  | short letter escape =>
    cases hd with
    | short letter' escape' =>
      obtain ⟨rfl, rfl⟩ := h
      exact ⟨shortEscape_inj escape escape', rfl⟩
    | plain noEscape =>
      exact absurd (cons.inj h).1.symm (ne_backslash noEscape)
    | units noEscape =>
      obtain ⟨rest, hrest⟩ := exists_flatMap_escapeUnit d
      rw [hrest] at h
      exact absurd (cons.inj (cons.inj h).2).1 (shortEscape_ne_u escape)
  | plain noEscape =>
    cases hd with
    | short letter escape =>
      exact absurd (cons.inj h).1 (ne_backslash noEscape)
    | plain => exact cons.inj h
    | units =>
      obtain ⟨rest, hrest⟩ := exists_flatMap_escapeUnit d
      rw [hrest] at h
      exact absurd (cons.inj h).1 (ne_backslash noEscape)
  | units noEscape =>
    cases hd with
    | short letter escape =>
      obtain ⟨rest, hrest⟩ := exists_flatMap_escapeUnit c
      rw [hrest] at h
      exact absurd (cons.inj (cons.inj h).2).1.symm (shortEscape_ne_u escape)
    | plain noEscape' =>
      obtain ⟨rest, hrest⟩ := exists_flatMap_escapeUnit c
      rw [hrest] at h
      exact absurd (cons.inj h).1.symm (ne_backslash noEscape')
    | units => exact utf16Units_append_inj h

theorem head?_of_escaped (hescape : ∀ c, Escaped c (escape c)) (c : Char) (r : List Char) :
    escape c ++ r ≠ [] ∧ (escape c ++ r).head? ≠ some '"' := by
  have hc := hescape c
  generalize escape c = x at hc ⊢
  cases hc with
  | short letter => simp
  | plain noEscape =>
    refine ⟨by simp, ?_⟩
    rintro hquote
    cases hquote
    cases noEscape
  | units =>
    obtain ⟨rest, hrest⟩ := exists_flatMap_escapeUnit c
    simp [hrest]

/-! ### Objects -/

def quoted (text : String) : List Char := '"' :: terminated escapeChar '"' text.toList

/-- A text in quotes with everything outside ASCII as it is (`ensure_ascii=False`). -/
def quotedVerbatim (text : String) : List Char :=
  '"' :: terminated escapeVerbatim '"' text.toList

theorem selfDelimiting_quotes (hescape : ∀ c, Escaped c (escape c)) :
    SelfDelimiting fun text : String => '"' :: terminated escape '"' text.toList := by
  intro a b r s h
  obtain ⟨hlist, hrest⟩ := selfDelimiting_terminated (selfDelimiting_of_escaped hescape)
    (head?_of_escaped hescape) (cons.inj h).2
  exact ⟨String.toList_inj.mp hlist, hrest⟩

theorem selfDelimiting_quoted : SelfDelimiting quoted := selfDelimiting_quotes escaped_escapeChar

theorem selfDelimiting_quotedVerbatim : SelfDelimiting quotedVerbatim :=
  selfDelimiting_quotes escaped_escapeVerbatim

/-- A value of a flat object: a text or `null`. -/
def scalar : Option String → List Char
  | some text => quoted text
  | none => ['n', 'u', 'l', 'l']

/-- A text in the given quotes, or `null`. -/
def nullable (quote : String → List Char) : Option String → List Char
  | some text => quote text
  | none => ['n', 'u', 'l', 'l']

theorem selfDelimiting_nullable {quote : String → List Char} (hquote : SelfDelimiting quote)
    (hfront : ∀ text, ∃ rest, quote text = '"' :: rest) : SelfDelimiting (nullable quote) := by
  intro a b r s h
  cases a with
  | none =>
    cases b with
    | none => exact ⟨rfl, append_cancel_left h⟩
    | some b =>
      obtain ⟨rest, hrest⟩ := hfront b
      rw [nullable, nullable, hrest] at h
      exact absurd (cons.inj h).1 (by decide)
  | some a =>
    cases b with
    | none =>
      obtain ⟨rest, hrest⟩ := hfront a
      rw [nullable, nullable, hrest] at h
      exact absurd (cons.inj h).1 (by decide)
    | some b =>
      obtain ⟨rfl, hrest⟩ := hquote h
      exact ⟨rfl, hrest⟩

theorem selfDelimiting_scalar : SelfDelimiting scalar := by
  have hscalar : scalar = nullable quoted := by
    funext value
    cases value <;> rfl
  exact selfDelimiting_nullable selfDelimiting_quoted fun _ => ⟨_, rfl⟩

theorem selfDelimiting_nullableVerbatim : SelfDelimiting (nullable quotedVerbatim) :=
  selfDelimiting_nullable selfDelimiting_quotedVerbatim fun _ => ⟨_, rfl⟩

/-- One `"key":value` entry. -/
def entry (e : String × Option String) : List Char := quoted e.1 ++ (':' :: scalar e.2)

theorem selfDelimiting_entry : SelfDelimiting entry :=
  selfDelimiting_quoted.pair (selfDelimiting_scalar.after [':'])

/-- The entries of an object, with commas between them. -/
def objectText : List (String × Option String) → List Char
  | [] => ['{', '}']
  | e :: rest => '{' :: entry e ++ terminated (fun e => ',' :: entry e) '}' rest

theorem objectText_injective : Function.Injective objectText := by
  intro xs ys h
  cases xs with
  | nil =>
    cases ys with
    | nil => rfl
    | cons y rest => exact absurd (cons.inj (cons.inj h).2).1 (by decide)
  | cons x rest =>
    cases ys with
    | nil => exact absurd (cons.inj (cons.inj h).2).1 (by decide)
    | cons y rest' =>
      obtain ⟨rfl, htail⟩ := selfDelimiting_entry (cons.inj h).2
      have hentries : SelfDelimiting (terminated (fun e => ',' :: entry e) '}') :=
        selfDelimiting_terminated (selfDelimiting_entry.after [',']) fun e r => by simp
      rw [hentries.injective htail]

/-- The entries of a dictionary in the order of their keys. -/
def sortedEntries {ν : Type*} (d : Dict String ν) : List (String × ν) :=
  d.entries.insertionSort fun a b => a.1 ≤ b.1

/-- `json.dumps(d, sort_keys=True, separators=(",", ":"))` for texts and nulls. -/
def canonicalJson (d : Dict String (Option String)) : String :=
  String.ofList (objectText (sortedEntries d))

theorem sortedEntries_perm {ν : Type*} (d : Dict String ν) :
    (sortedEntries d).Perm d.entries := perm_insertionSort _ _

/-- The canonical text determines what the dictionary answers at every key. -/
theorem get?_eq_of_canonicalJson_eq {d d' : Dict String (Option String)}
    (h : canonicalJson d = canonicalJson d') (key : String) : d.get? key = d'.get? key := by
  have hsorted : sortedEntries d = sortedEntries d' :=
    objectText_injective (String.ofList_injective h)
  have hperm : d.entries.Perm d'.entries :=
    (sortedEntries_perm d).symm.trans (hsorted ▸ sortedEntries_perm d')
  ext value
  rw [Dict.get?_eq_some_iff, Dict.get?_eq_some_iff, hperm.mem_iff]

example : canonicalJson (((Dict.empty).insert "b" (some "x\ny")).insert "a" none) =
    "\x7b\"a\":null,\"b\":\"x\\ny\"\x7d" := by decide +kernel

end LotusAI.Lib
