import OwlFunctional.Iri.Reference
import OwlFunctional.Proofs.Printing.Name

/-! An identifier that passes the check for absolute ones can stand between angle brackets.

Each part of the check reads characters off the front of a text. None of them is a closing bracket
or a line end.
-/

set_option autoImplicit false

namespace OwlFunctional.Iri

open Lexeme Spelling

/-- The characters of a text can all stand between angle brackets. -/
def Inside (text : List Char) : Prop := ∀ c ∈ text, insideIri c = true

section

variable {first second : List Char}

theorem Inside.nil : Inside [] := by simp [Inside]

theorem Inside.cons {c : Char} (one : insideIri c = true) (others : Inside first) :
    Inside (c :: first) := List.forall_mem_cons.mpr ⟨one, others⟩

theorem Inside.append (one : Inside first) (two : Inside second) : Inside (first ++ second) :=
  List.forall_mem_append.mpr ⟨one, two⟩

end

/-- The rest of a text, after characters that can stand between angle brackets. -/
def Leads (text rest : List Char) : Prop := ∃ taken, text = taken ++ rest ∧ Inside taken

section

variable {text middle rest : List Char}

theorem Leads.refl (text : List Char) : Leads text text := ⟨[], rfl, .nil⟩

theorem Leads.cons {c : Char} (one : insideIri c = true) (others : Leads text rest) :
    Leads (c :: text) rest := by
  obtain ⟨taken, rfl, inside⟩ := others
  exact ⟨c :: taken, rfl, .cons one inside⟩

theorem Leads.trans (before : Leads text middle) (after : Leads middle rest) : Leads text rest := by
  obtain ⟨taken, rfl, inside⟩ := before
  obtain ⟨more, rfl, others⟩ := after
  exact ⟨taken ++ more, by simp, inside.append others⟩

theorem Leads.inside (leads : Leads text rest) (beyond : Inside rest) : Inside text := by
  obtain ⟨taken, rfl, inside⟩ := leads
  exact inside.append beyond

theorem leads_dropWhile {p : Char → Bool} (allowed : ∀ c, p c = true → insideIri c = true)
    (text : List Char) : Leads text (text.dropWhile p) := by
  refine ⟨text.takeWhile p, (List.takeWhile_append_dropWhile ..).symm, fun c member => ?_⟩
  exact allowed c (List.all_eq_true.mp List.all_takeWhile c member)

end

theorem isHexDigit_inside {c : Char} (hex : isHexDigit c = true) : insideIri c = true :=
  insideIri_of (by decide) (by decide) (by decide) hex

theorem isDigit_inside {c : Char} (digit : c.isDigit = true) : insideIri c = true :=
  insideIri_of (by decide) (by decide) (by decide) digit

/-! ## Parts -/

/-- What is read of a part can stand between angle brackets, and the part ends where it may. -/
theorem readPart_leads {allowed ends : Char → Bool} (sound : ∀ c, allowed c = true → insideIri c = true)
    {text rest : List Char} (read : readPart allowed ends text = .ok rest) :
    Leads text rest ∧ ∀ c ∈ rest.head?, ends c = true := by
  fun_induction readPart allowed ends text with
  | case1 =>
    obtain rfl := Except.ok.inj read
    exact ⟨.refl [], by simp⟩
  | case2 c text isEnd =>
    obtain rfl := Except.ok.inj read
    exact ⟨.refl _, by simpa using isEnd⟩
  | case3 c text isEnd isAllowed ih =>
    obtain ⟨leads, beyond⟩ := ih read
    exact ⟨leads.cons (sound c isAllowed), beyond⟩
  | case4 high low text hex isEnd isAllowed ih =>
    obtain ⟨leads, beyond⟩ := ih read
    rw [Bool.and_eq_true] at hex
    exact ⟨((leads.cons (isHexDigit_inside hex.2)).cons (isHexDigit_inside hex.1)).cons (by decide),
      beyond⟩
  | case5 => simp at read
  | case6 => simp at read
  | case7 => simp at read

theorem isPathChar_inside (c : Char) (allowed : isPathChar c = true) : insideIri c = true :=
  insideIri_of (by decide) (by decide) (by decide) allowed

theorem isFragmentChar_inside (c : Char) (allowed : isFragmentChar c = true) : insideIri c = true :=
  insideIri_of (by decide) (by decide) (by decide) allowed

theorem isQueryChar_inside (c : Char) (allowed : isQueryChar c = true) : insideIri c = true :=
  insideIri_of (by decide) (by decide) (by decide) allowed

theorem isPlain_inside (c : Char) (allowed : isPlain c = true) : insideIri c = true :=
  insideIri_of (by decide) (by decide) (by decide) allowed

theorem checkFragment_inside {text : List Char} (checked : checkFragment text = .ok ()) :
    Inside text := by
  obtain ⟨rest, read, -⟩ := exists_of_bind_ok checked
  obtain ⟨leads, beyond⟩ := readPart_leads isFragmentChar_inside read
  cases rest with
  | nil => exact leads.inside .nil
  | cons c rest => simp at beyond

theorem checkQuery_inside {text : List Char} (checked : checkQuery text = .ok ()) :
    Inside text := by
  obtain ⟨rest, read, checked⟩ := exists_of_bind_ok checked
  obtain ⟨leads, beyond⟩ := readPart_leads isQueryChar_inside read
  cases rest with
  | nil => exact leads.inside .nil
  | cons c fragment =>
    obtain rfl : c = '#' := by simpa using beyond
    exact leads.inside (.cons (by decide) (checkFragment_inside checked))

theorem checkPath_inside {text : List Char} (checked : checkPath text = .ok ()) :
    Inside text := by
  obtain ⟨rest, read, checked⟩ := exists_of_bind_ok checked
  obtain ⟨leads, beyond⟩ := readPart_leads isPathChar_inside read
  refine leads.inside ?_
  split at checked
  · exact .cons (by decide) (checkQuery_inside checked)
  · next c fragment _ =>
    have mark : insideIri c = true :=
      insideIri_of (p := fun c => c == '?' || c == '#') (by decide) (by decide) (by decide)
        (beyond c rfl)
    exact .cons mark (checkFragment_inside checked)
  · exact .nil

theorem checkPort_inside {text : List Char} (checked : checkPort text = .ok ()) :
    Inside text := by
  have leads := leads_dropWhile (fun _ => isDigit_inside) text
  refine leads.inside ?_
  unfold checkPort at checked
  split at checked
  · next beyond =>
    rw [beyond]
    exact .nil
  · next same =>
    split at checked
    · rw [same]
      exact checkPath_inside checked
    · simp at checked

/-! ## Hosts -/

theorem checkFutureHost_inside {text : List Char} (checked : checkFutureHost text = .ok ()) :
    Inside text := by
  unfold checkFutureHost at checked
  dsimp only at checked
  split at checked
  · simp at checked
  · next digits =>
    split at checked
    · simp at checked
    · split at checked
      · simp at checked
      · split at checked
        · simp at checked
        · next name =>
          have version : Inside (text.takeWhile (· != '.')) := by
            intro c member
            exact isHexDigit_inside (by simpa using List.find?_eq_none.mp digits c member)
          have later : Inside (text.dropWhile (· != '.')) := by
            cases same : text.dropWhile (· != '.') with
            | nil => exact .nil
            | cons c rest =>
              have dot := List.head?_dropWhile_not (· != '.') text
              rw [same] at name dot
              obtain rfl : c = '.' := by simpa using dot
              refine .cons (by decide) fun c member => ?_
              -- The check looks for a character that is not allowed, and found none.
              have plain : (isPlainAscii c || c == ':') = true := by
                have free := List.find?_eq_none.mp name c member
                cases allowed : isPlainAscii c || c == ':' with
                | true => rfl
                | false => simp [allowed] at free
              exact insideIri_of (p := fun c => isPlainAscii c || c == ':') (by decide) (by decide)
                (by decide) plain
          rw [← List.takeWhile_append_dropWhile (p := (· != '.')) (l := text)]
          exact version.append later

theorem readGroup?_leads {text rest : List Char} (read : readGroup? text = some rest) :
    Leads text rest := by
  unfold readGroup? at read
  dsimp only at read
  split at read
  · rw [← Option.some.inj read]
    exact leads_dropWhile (fun _ => isHexDigit_inside) text
  · simp at read

theorem readOctet?_leads {text rest : List Char} (read : readOctet? text = some rest) :
    Leads text rest := by
  unfold readOctet? at read
  dsimp only at read
  split at read
  · rw [← Option.some.inj read]
    exact leads_dropWhile (fun _ => isDigit_inside) text
  · simp at read

theorem readMark?_leads {mark : Char} (inside : insideIri mark = true) {text rest : List Char}
    (read : readMark? mark text = some rest) : Leads text rest := by
  unfold readMark? at read
  split at read
  · split at read
    · next same =>
      rw [same, ← Option.some.inj read]
      exact (Leads.refl _).cons inside
    · simp at read
  · simp at read

theorem readQuad?_leads {text rest : List Char} (read : readQuad? text = some rest) :
    Leads text rest := by
  have step {text rest : List Char} (read : (readMark? '.' text >>= readOctet?) = some rest) :
      Leads text rest := by
    obtain ⟨middle, mark, octet⟩ := Option.bind_eq_some_iff.mp read
    exact (readMark?_leads (by decide) mark).trans (readOctet?_leads octet)
  obtain ⟨first, one, read⟩ := Option.bind_eq_some_iff.mp read
  obtain ⟨second, two, read⟩ := Option.bind_eq_some_iff.mp read
  obtain ⟨third, three, read⟩ := Option.bind_eq_some_iff.mp read
  exact (((readOctet?_leads one).trans (step two)).trans (step three)).trans (step read)

theorem readGroups_leads (limit : Nat) (atStart : Bool) (text : List Char) :
    Leads text (readGroups limit atStart text).rest := by
  have begins {start : List Char}
      (starts : (if atStart then some text else readMark? ':' text) = some start) :
      Leads text start := by
    split at starts
    · rw [← Option.some.inj starts]
      exact .refl text
    · exact readMark?_leads (by decide) starts
  induction limit generalizing atStart text with
  | zero => exact .refl text
  | succ limit ih =>
    rw [readGroups]
    dsimp only
    split
    · next rest quad =>
      split at quad
      · obtain ⟨start, starts, quad⟩ := Option.bind_eq_some_iff.mp quad
        exact (begins starts).trans (readQuad?_leads quad)
      · simp at quad
    · split
      · exact .refl text
      · next rest group =>
        obtain ⟨start, starts, group⟩ := Option.bind_eq_some_iff.mp group
        refine ((begins starts).trans (readGroup?_leads group)).trans (ih false rest ?_)
        intro start starts
        exact readMark?_leads (by decide) starts

theorem isAddress_inside {text : List Char} (address : isAddress text = true) : Inside text := by
  have leads := readGroups_leads 8 true text
  unfold isAddress at address
  dsimp only at address
  split at address
  · exact leads.inside (List.isEmpty_iff.mp address ▸ .nil)
  · split at address
    · simp at address
    · split at address
      · next rest same =>
        rw [same] at leads
        have others := readGroups_leads (7 - (readGroups 8 true text).count) true rest
        have last : Inside rest := others.inside (List.isEmpty_iff.mp address ▸ .nil)
        exact leads.inside (.cons (by decide) (.cons (by decide) last))
      · simp at address

theorem checkBracketedHost_inside {text : List Char} (checked : checkBracketedHost text = .ok ()) :
    Inside text := by
  unfold checkBracketedHost at checked
  split at checked
  · exact .cons (by decide) (checkFutureHost_inside checked)
  · exact .cons (by decide) (checkFutureHost_inside checked)
  · split at checked
    · next address => exact isAddress_inside address
    · simp at checked

theorem checkHost_inside {text : List Char} (checked : checkHost text = .ok ()) : Inside text := by
  unfold checkHost at checked
  split at checked
  · next rest =>
    refine .cons (by decide) ?_
    split at checked
    · simp at checked
    · next bracket after same =>
      obtain ⟨_, host, checked⟩ := exists_of_bind_ok checked
      have closing := List.head?_dropWhile_not (· != ']') rest
      rw [same] at closing
      obtain rfl : bracket = ']' := by simpa using closing
      have last : Inside after := by
        split at checked
        · exact .nil
        · exact .cons (by decide) (checkPort_inside checked)
        · split at checked
          · exact checkPath_inside checked
          · simp at checked
      rw [← List.takeWhile_append_dropWhile (p := (· != ']')) (l := rest), same]
      exact (checkBracketedHost_inside host).append (.cons (by decide) last)
  · obtain ⟨rest, read, checked⟩ := exists_of_bind_ok checked
    obtain ⟨leads, -⟩ := readPart_leads isPlain_inside read
    split at checked
    · exact leads.inside (.cons (by decide) (checkPort_inside checked))
    · exact leads.inside (checkPath_inside checked)

theorem checkAuthority_inside {text : List Char} (checked : checkAuthority text = .ok ()) :
    Inside text := by
  obtain ⟨rest, read, checked⟩ := exists_of_bind_ok checked
  have plain (c : Char) (allowed : (isPlain c || c == ':') = true) : insideIri c = true :=
    insideIri_of (p := fun c => isPlain c || c == ':') (by decide) (by decide) (by decide) allowed
  obtain ⟨leads, -⟩ := readPart_leads plain read
  split at checked
  · exact leads.inside (.cons (by decide) (checkHost_inside checked))
  · exact checkHost_inside checked

/-! ## Whole identifiers -/

theorem checkHierarchy_inside {text : List Char} (checked : checkHierarchy text = .ok ()) :
    Inside text := by
  unfold checkHierarchy at checked
  split at checked
  · refine .cons (by decide) ?_
    unfold checkAfterSlash at checked
    split at checked
    · exact .cons (by decide) (checkAuthority_inside checked)
    · exact checkPath_inside checked
  · exact checkPath_inside checked

/-- What is accepted as an absolute identifier can stand between angle brackets. -/
theorem writable_of_refusal?_eq_none {text : String} (accepted : refusal? text = none) :
    (⟨text⟩ : Iri).Writable := by
  have isSchemeChar_inside (c : Char) (scheme : isSchemeChar c = true) : insideIri c = true :=
    insideIri_of (by decide) (by decide) (by decide) scheme
  unfold refusal? at accepted
  dsimp only at accepted
  split at accepted
  · next checked =>
    split at checked
    · next rest hierarchy =>
      rw [Writable, List.all_eq_true]
      unfold afterScheme? at hierarchy
      split at hierarchy
      · split at hierarchy
        · next same =>
          obtain rfl := Option.some.inj hierarchy
          have leads := leads_dropWhile isSchemeChar_inside text.toList
          rw [same] at leads
          exact leads.inside (.cons (by decide) (checkHierarchy_inside checked))
        · simp at hierarchy
      · simp at hierarchy
    · -- Without a scheme a text is refused in any case.
      split at checked
      · obtain ⟨_, -, refused⟩ := exists_of_bind_ok checked
        simp at refused
      · simp at checked
  · simp at accepted

end OwlFunctional.Iri
