import Mathlib

namespace Phone

-- The characters that `trim` removes.
def isSpace (c : Char) : Bool :=
  let n := c.toNat
  9 ≤ n ∧ n ≤ 13 ∨ n = 0x20 ∨ n = 0xa0 ∨ n = 0x1680 ∨ 0x2000 ≤ n ∧ n ≤ 0x200a ∨ n = 0x2028 ∨ n = 0x2029 ∨
    n = 0x202f ∨ n = 0x205f ∨ n = 0x3000 ∨ n = 0xfeff

def trimStart (cs : List Char) : List Char :=
  cs.dropWhile isSpace

def trim (cs : List Char) : List Char :=
  (trimStart cs).rdropWhile isSpace

def scheme : List Char :=
  "whatsapp:".toList

-- The scheme is stripped in upper and lower case.
def stripScheme (cs : List Char) : List Char :=
  if (cs.take scheme.length).map Char.toLower = scheme then cs.drop scheme.length else cs

def digitsOf (cs : List Char) : List Char :=
  cs.filter Char.isDigit

-- What may follow the plus sign of a number.
def e164 : List Char → Bool
  | []          => false
  | c :: digits => c.isDigit ∧ c ≠ '0' ∧ digits.all Char.isDigit ∧ 7 ≤ digits.length ∧ digits.length ≤ 14

def toE164 (digits : List Char) : Option String :=
  if e164 digits then some (String.ofList ('+' :: digits)) else none

-- The digits of the code of the call, or else of the one that is configured.
def countryCode (defaultCC : String) (defaultCountryCode : Option String) : List Char :=
  digitsOf ((defaultCountryCode.filter (· ≠ "")).getD defaultCC).toList

def normalizePhone (defaultCC : String) (input defaultCountryCode : Option String) : Option String := do
  let raw := trim (← input).toList
  if raw = [] then none
  else
    let raw     := stripScheme raw
    let hadPlus := (trimStart raw).head? = some '+'
    let digits  := digitsOf raw
    if digits = [] then none
    else if hadPlus then toE164 digits
    else
      let cc := countryCode defaultCC defaultCountryCode
      if digits.take 2 = ['0', '0'] then toE164 (digits.drop 2)
      else if cc ≠ [] then
        let national := if digits.head? = some '0' then digits.dropWhile (· = '0') else digits
        toE164 (cc ++ national)
      else toE164 digits

example : normalizePhone "254" (some "whatsapp: 0712 345-678") none = some "+254712345678" := by
  decide +kernel

-- A number with the code of its country, which does not start with a zero.
structure Number where
  code       : List Char
  subscriber : List Char
  digits     : ∀ c ∈ code ++ subscriber, c.isDigit = true
  leading    : ∃ c cs, code = c :: cs ∧ c ≠ '0'

-- The ways to write a number: with the trunk zero, with its country code, with a plus sign or two zeros
-- before it.
inductive Form
  | national
  | bare
  | plus
  | zeros
  deriving DecidableEq, Repr

def isSeparator (c : Char) : Bool :=
  c = ' ' ∨ c = '-' ∨ c = '(' ∨ c = ')' ∨ c = '.'

namespace Number

variable (p : Number)

def international : List Char :=
  p.code ++ p.subscriber

def digitsIn : Form → List Char
  | .national     => '0' :: p.subscriber
  | .bare | .plus => p.international
  | .zeros        => '0' :: '0' :: p.international

-- The text is the number in this form, with separators, and with or without the scheme.
def Written (form : Form) (s : String) : Prop :=
  ∃ lead start spaces body, s.toList =
      lead ++ (start ++ (spaces ++ ((if form = .plus then ['+'] else []) ++ body))) ∧
    (start = [] ∨ start.map Char.toLower = scheme) ∧ (∀ c ∈ lead ++ spaces, c = ' ') ∧
    (∀ c ∈ body, c.isDigit = true ∨ isSeparator c = true) ∧ digitsOf body = p.digitsIn form

-- The form without a code stands for the number where the code is the one in force.
def Admits (cc : List Char) : Form → Prop
  | .national => cc = p.code
  | _         => True

-- All texts for the number that can be normalized are normalized to the same.
def SameNumber (defaultCC : String) (defaultCountryCode : Option String) : Prop :=
  ∀ form form' s s' a b, p.Admits (countryCode defaultCC defaultCountryCode) form →
    p.Admits (countryCode defaultCC defaultCountryCode) form' → p.Written form s → p.Written form' s' →
    normalizePhone defaultCC (some s) defaultCountryCode = some a →
    normalizePhone defaultCC (some s') defaultCountryCode = some b → a = b

-- The number does not fit again when the code in force is put before its own, and it is not read as
-- another number when its subscriber number starts with a zero.
def Unambiguous (cc : List Char) : Prop :=
  (cc = [] ∨ ¬(e164 p.international = true ∧ e164 (cc ++ p.international) = true)) ∧
  (cc = p.code → p.subscriber.head? = some '0' → ¬(e164 p.subscriber.tail = true ∧
    (e164 p.international = true ∨ e164 (cc ++ p.international) = true)))

-- What a form is read as.
def readAs (cc : List Char) : Form → List Char
  | .national     => if p.subscriber.head? = some '0' then p.subscriber.tail else p.international
  | .bare         => cc ++ p.international
  | .plus | .zeros => p.international

end Number

-- What is returned is left as it is, whatever the default is.
def Idempotent : Prop :=
  ∀ defaultCC defaultCC' input defaultCountryCode defaultCountryCode' result,
    normalizePhone defaultCC input defaultCountryCode = some result →
      normalizePhone defaultCC' (some result) defaultCountryCode' = some result

variable {c : Char} {cs cs' digits : List Char} {s defaultCC : String} {defaultCountryCode : Option String}
  {p : Number} {form : Form}

section Characters

theorem toNat_of_isDigit (h : c.isDigit = true) : 48 ≤ c.toNat ∧ c.toNat ≤ 57 := by
  simp only [Char.isDigit, Bool.and_eq_true, decide_eq_true_eq, UInt32.le_iff_toNat_le] at h
  exact h

theorem isSpace_of_isDigit (h : c.isDigit = true) : isSpace c = false := by
  have hrange := toNat_of_isDigit h
  simp only [isSpace, decide_eq_false_iff_not]
  omega

-- Only upper case letters are changed to another character.
theorem toLower_of_toNat (h : c.toNat < 65 ∨ 90 < c.toNat) : c.toLower = c := by
  rw [Char.toLower, dif_neg]
  intro hupper
  have hlo : 65 ≤ c.toNat := UInt32.le_iff_toNat_le.mp hupper.1
  have hhi : c.toNat ≤ 90 := UInt32.le_iff_toNat_le.mp hupper.2
  omega

theorem toLower_ne_of_isSpace (h : isSpace c = true) : c.toLower ≠ 'w' := by
  have hspace := h
  simp only [isSpace, decide_eq_true_eq] at h
  rw [toLower_of_toNat (by omega)]
  rintro rfl
  exact absurd hspace (by decide)

theorem head?_trimStart : (trimStart cs).head? = cs.find? fun c => !isSpace c := by
  induction cs with
  | nil => rfl
  | cons c cs ih =>
    rw [trimStart, List.dropWhile_cons, List.find?_cons]
    cases hc : isSpace c with
    | true => exact ih
    | false => rfl

-- Nothing but spaces is removed.
theorem trim_split (cs : List Char) : ∃ before after, cs = before ++ (trim cs ++ after) ∧
    (∀ c ∈ before, isSpace c = true) ∧ ∀ c ∈ after, isSpace c = true := by
  refine ⟨cs.takeWhile isSpace, (trimStart cs).rtakeWhile isSpace, ?_, ?_, ?_⟩
  · rw [trim, List.rdropWhile_append_rtakeWhile, trimStart, List.takeWhile_append_dropWhile]
  · exact fun c hm => List.mem_takeWhile_imp hm
  · exact fun c hm => List.mem_rtakeWhile_imp hm

theorem digitsOf_spaces (h : ∀ c ∈ cs, isSpace c = true) : digitsOf cs = [] := by
  refine List.filter_eq_nil_iff.mpr fun c hm hd => ?_
  have hspace := h c hm
  rw [isSpace_of_isDigit hd] at hspace
  cases hspace

theorem find?_spaces (h : ∀ c ∈ cs, isSpace c = true) : (cs.find? fun c => !isSpace c) = none :=
  List.find?_eq_none.mpr fun c hm => by simp [h c hm]

theorem digitsOf_append : digitsOf (cs ++ cs') = digitsOf cs ++ digitsOf cs' :=
  List.filter_append ..

theorem digitsOf_trim : digitsOf (trim cs) = digitsOf cs := by
  obtain ⟨before, after, heq, hbefore, hafter⟩ := trim_split cs
  have hdigits := congrArg digitsOf heq
  rw [digitsOf_append, digitsOf_append, digitsOf_spaces hbefore, digitsOf_spaces hafter,
    List.nil_append, List.append_nil] at hdigits
  exact hdigits.symm

theorem find?_trim : ((trim cs).find? fun c => !isSpace c) = cs.find? fun c => !isSpace c := by
  obtain ⟨before, after, heq, hbefore, hafter⟩ := trim_split cs
  have hfind := congrArg (List.find? fun c => !isSpace c) heq
  rw [List.find?_append, List.find?_append, find?_spaces hbefore, find?_spaces hafter,
    Option.none_or, Option.or_none] at hfind
  exact hfind.symm

theorem trimStart_append (h : ∀ c ∈ cs, isSpace c = true) : trimStart (cs ++ cs') = trimStart cs' := by
  rw [trimStart, List.dropWhile_append_of_pos h, trimStart]

theorem rdropWhile_append {q : Char → Bool} (h : ∃ c ∈ cs', q c = false) :
    (cs ++ cs').rdropWhile q = cs ++ cs'.rdropWhile q := by
  obtain ⟨c, hm, hc⟩ := h
  have hne : cs'.reverse.dropWhile q ≠ [] := by
    intro hnil
    have hall := List.dropWhile_eq_nil_iff.mp hnil c (List.mem_reverse.mpr hm)
    rw [hc] at hall
    cases hall
  rw [List.rdropWhile, List.reverse_append, List.dropWhile_append, if_neg (by simpa using hne),
    List.reverse_append, List.reverse_reverse, List.rdropWhile]

end Characters

section Scheme

theorem stripScheme_scheme (h : cs.map Char.toLower = scheme) : stripScheme (cs ++ cs') = cs' := by
  have hlength : cs.length = scheme.length := by rw [← h, List.length_map]
  rw [stripScheme, ← hlength, List.take_left, if_pos h, List.drop_left]

theorem stripScheme_of_ne (h : ∀ c, cs.head? = some c → c.toLower ≠ 'w') : stripScheme cs = cs := by
  rw [stripScheme, if_neg]
  intro heq
  cases cs with
  | nil => cases heq
  | cons c cs =>
    have hw : c.toLower = 'w' := List.head_eq_of_cons_eq heq
    exact h c rfl hw

-- The scheme starts with a letter.
theorem trim_scheme {lead : List Char} (hlead : ∀ c ∈ lead, isSpace c = true)
    (h : cs.map Char.toLower = scheme) (hne : ∃ c ∈ cs', isSpace c = false) :
    trim (lead ++ (cs ++ cs')) = cs ++ cs'.rdropWhile isSpace := by
  have hstart : trimStart (cs ++ cs') = cs ++ cs' := by
    cases cs with
    | nil => cases h
    | cons c cs =>
      have hw : c.toLower = 'w' := List.head_eq_of_cons_eq h
      have hc : isSpace c = false := by
        apply Bool.eq_false_of_not_eq_true
        exact fun hspace => toLower_ne_of_isSpace hspace hw
      rw [List.cons_append, trimStart, List.dropWhile_cons_of_neg (by simp [hc])]
  rw [trim, trimStart_append hlead, hstart, rdropWhile_append hne]

-- Spaces at the end are neither digits nor the first character.
theorem rdropWhile_spaces : digitsOf (cs.rdropWhile isSpace) = digitsOf cs ∧
    ((cs.rdropWhile isSpace).find? fun c => !isSpace c) = cs.find? fun c => !isSpace c := by
  have hafter : ∀ c ∈ cs.rtakeWhile isSpace, isSpace c = true := fun _ hm => List.mem_rtakeWhile_imp hm
  have hsplit : cs.rdropWhile isSpace ++ cs.rtakeWhile isSpace = cs := List.rdropWhile_append_rtakeWhile ..
  constructor
  · rw [← congrArg digitsOf hsplit, digitsOf_append, digitsOf_spaces hafter, List.append_nil]
  · rw [← congrArg (List.find? fun c => !isSpace c) hsplit, List.find?_append, find?_spaces hafter,
      Option.or_none]

end Scheme

section Numbers

theorem Number.digitsIn_ne_nil : p.digitsIn form ≠ [] := by
  obtain ⟨c, cs, hcode, _⟩ := p.leading
  cases form <;> simp [digitsIn, international, hcode]

theorem toLower_of_isSeparator (h : isSeparator c = true) : c.toLower ≠ 'w' := by
  simp only [isSeparator, decide_eq_true_eq] at h
  rcases h with rfl | rfl | rfl | rfl | rfl <;> decide

theorem toLower_of_isDigit (h : c.isDigit = true) : c.toLower ≠ 'w' := by
  have hrange := toNat_of_isDigit h
  rw [toLower_of_toNat (by omega)]
  rintro rfl
  exact absurd h (by decide)

-- A number without its lead and its scheme: the digits, the first character, and no letter.
theorem Number.core {spaces body : List Char} (hspaces : ∀ c ∈ spaces, c = ' ')
    (hbody : ∀ c ∈ body, c.isDigit = true ∨ isSeparator c = true) (hdigits : digitsOf body = p.digitsIn form)
    (hcs : cs = spaces ++ ((if form = .plus then ['+'] else []) ++ body)) :
    digitsOf cs = p.digitsIn form ∧ ((cs.find? fun c => !isSpace c) = some '+' ↔ form = .plus) ∧
      (∀ c ∈ cs, c.toLower ≠ 'w') ∧ ∃ c ∈ cs, isSpace c = false := by
  have hspaces' : ∀ c ∈ spaces, isSpace c = true := fun c hm => by
    rw [hspaces c hm]
    decide
  have hcore : digitsOf cs = p.digitsIn form := by
    rw [hcs, digitsOf_append, digitsOf_append, digitsOf_spaces hspaces', hdigits]
    split_ifs <;> rfl
  refine ⟨hcore, ?_, ?_, ?_⟩
  case refine_1 =>
    rw [hcs, List.find?_append, find?_spaces hspaces', Option.none_or]
    split_ifs with hform
    case pos => simp [hform, show isSpace '+' = false by decide]
    case neg =>
      refine iff_of_false (fun hfind => ?_) hform
      rcases hbody '+' (List.mem_of_find?_eq_some hfind) with hd | hs
      · cases hd
      · cases hs
  case refine_2 =>
    intro c hm
    rw [hcs] at hm
    rcases List.mem_append.mp hm with hm | hm
    · rw [hspaces c hm]
      decide
    · rcases List.mem_append.mp hm with hm | hm
      · split_ifs at hm
        · rw [List.mem_singleton.mp hm]
          decide
        · cases hm
      · exact (hbody c hm).elim toLower_of_isDigit toLower_of_isSeparator
  case refine_3 =>
    have hne : p.digitsIn form ≠ [] := p.digitsIn_ne_nil
    rw [← hcore] at hne
    obtain ⟨c, hm⟩ := List.exists_mem_of_ne_nil _ hne
    obtain ⟨hm, hd⟩ := List.mem_filter.mp hm
    exact ⟨c, hm, isSpace_of_isDigit hd⟩

-- What is left of a number when spaces and the scheme are stripped.
theorem Number.Written.stripped (h : p.Written form s) :
    digitsOf (stripScheme (trim s.toList)) = p.digitsIn form ∧
      ((trimStart (stripScheme (trim s.toList))).head? = some '+' ↔ form = .plus) ∧
      trim s.toList ≠ [] := by
  obtain ⟨lead, start, spaces, body, hs, hstart, hspaces, hbody, hdigits⟩ := h
  have hlead : ∀ c ∈ lead, isSpace c = true := fun c hm => by
    rw [hspaces c (List.mem_append_left _ hm)]
    decide
  obtain ⟨hcore, hplus, hletter, hne⟩ :=
    Number.core (fun c hm => hspaces c (List.mem_append_right _ hm)) hbody hdigits rfl
  generalize spaces ++ ((if form = .plus then ['+'] else []) ++ body) = cs at hs hcore hplus hletter hne
  rw [head?_trimStart]
  rcases hstart with rfl | hstart
  case inl =>
    rw [List.nil_append] at hs
    have htrim : digitsOf (trim s.toList) = p.digitsIn form := by
      rw [digitsOf_trim, hs, digitsOf_append, digitsOf_spaces hlead, List.nil_append, hcore]
    have hstrip : stripScheme (trim s.toList) = trim s.toList := by
      refine stripScheme_of_ne fun c hc => ?_
      obtain ⟨before, after, heq, _, _⟩ := trim_split s.toList
      have hm : c ∈ s.toList := by
        rw [heq]
        exact List.mem_append_right _ (List.mem_append_left _ (List.mem_of_mem_head? hc))
      rw [hs] at hm
      rcases List.mem_append.mp hm with hm | hm
      · exact toLower_ne_of_isSpace (hlead c hm)
      · exact hletter c hm
    rw [hstrip, htrim, find?_trim, hs, List.find?_append, find?_spaces hlead, Option.none_or]
    refine ⟨rfl, hplus, fun hnil => ?_⟩
    rw [hs, hnil] at htrim
    exact p.digitsIn_ne_nil htrim.symm
  case inr =>
    rw [hs, trim_scheme hlead hstart hne, stripScheme_scheme hstart, rdropWhile_spaces.1, rdropWhile_spaces.2]
    refine ⟨hcore, hplus, fun hnil => ?_⟩
    rw [(List.append_eq_nil_iff.mp hnil).1] at hstart
    cases hstart

theorem dropWhile_zero (h : cs.head? ≠ some '0') : cs.dropWhile (· = '0') = cs := by
  cases cs with
  | nil => rfl
  | cons c cs =>
    have hc : c ≠ '0' := fun heq => h (congrArg some heq)
    exact List.dropWhile_cons_of_neg (by simp [hc])

-- A text is normalized to what its form is read as.
theorem Number.Written.normalized (h : p.Written form s)
    (ha : p.Admits (countryCode defaultCC defaultCountryCode) form) :
    normalizePhone defaultCC (some s) defaultCountryCode =
      toE164 (p.readAs (countryCode defaultCC defaultCountryCode) form) := by
  obtain ⟨hdigits, hplus, hne⟩ := h.stripped
  obtain ⟨c, code, hcode, hc⟩ := p.leading
  have hne' : p.digitsIn form ≠ [] := p.digitsIn_ne_nil
  simp only [normalizePhone, Option.bind_eq_bind, Option.bind_some, if_neg hne, hdigits,
    if_neg hne', hplus]
  generalize countryCode defaultCC defaultCountryCode = cc at ha
  cases form with
  | plus => rfl
  | zeros => rfl
  | bare =>
    have hhead : p.digitsIn .bare = c :: (code ++ p.subscriber) := by rw [digitsIn, international, hcode]; rfl
    have htake : (p.digitsIn .bare).take 2 ≠ ['0', '0'] := by
      rw [hhead]
      exact fun heq => hc (List.head_eq_of_cons_eq heq)
    have hzero : ¬(p.digitsIn .bare).head? = some '0' := by
      rw [hhead]
      exact fun heq => hc (Option.some.inj heq)
    rw [if_neg (by simp), if_neg htake, if_neg hzero]
    split_ifs with hcc
    case pos => rfl
    case neg => rw [readAs, not_not.mp hcc, List.nil_append, digitsIn]
  | national =>
    have hcc : cc = p.code := ha
    have hcode' : cc ≠ [] := by simp [hcc, hcode]
    simp only [digitsIn, readAs, reduceCtorEq, if_false, List.head?_cons, if_true, if_pos hcode']
    cases hsub : p.subscriber with
    | nil => simp [international, hcc, hsub]
    | cons d rest =>
      by_cases hd : d = '0'
      case pos => simp [hd]
      case neg => simp [hd, international, hcc, hsub]

theorem toE164_eq_some {result : String} :
    toE164 digits = some result ↔ e164 digits = true ∧ String.ofList ('+' :: digits) = result := by
  rw [toE164]
  split_ifs with h
  · simp [h]
  · simp [h]

theorem toE164_inj {digits' : List Char} {result : String} (h : toE164 digits = some result)
    (h' : toE164 digits' = some result) : digits = digits' := by
  obtain ⟨_, rfl⟩ := toE164_eq_some.mp h
  have heq := congrArg String.toList (toE164_eq_some.mp h').2
  rw [String.toList_ofList, String.toList_ofList] at heq
  exact (List.tail_eq_of_cons_eq heq).symm

theorem Number.isDigit_digitsIn (h : c ∈ p.digitsIn form) : c.isDigit = true := by
  have hzero : '0'.isDigit = true := rfl
  have hsub : ∀ c ∈ p.subscriber, c.isDigit = true := fun c hm => p.digits c (List.mem_append_right _ hm)
  cases form with
  | national =>
    rcases List.mem_cons.mp h with rfl | h
    · exact hzero
    · exact hsub c h
  | bare => exact p.digits c h
  | plus => exact p.digits c h
  | zeros =>
    rcases List.mem_cons.mp h with rfl | h
    · exact hzero
    · rcases List.mem_cons.mp h with rfl | h
      · exact hzero
      · exact p.digits c h

-- The number in this form, without separators and without the scheme.
theorem Number.written_plain (form : Form) :
    p.Written form (String.ofList ((if form = .plus then ['+'] else []) ++ p.digitsIn form)) := by
  refine ⟨[], [], [], p.digitsIn form, ?_, .inl rfl, ?_, ?_, ?_⟩
  · rw [String.toList_ofList]; rfl
  · exact fun c hm => nomatch hm
  · exact fun c hm => .inl (Number.isDigit_digitsIn hm)
  · exact List.filter_eq_self.mpr fun c hm => Number.isDigit_digitsIn hm

-- A form that can be normalized has one result.
theorem Number.sameNumber_iff : p.SameNumber defaultCC defaultCountryCode ↔
    ∀ form form', p.Admits (countryCode defaultCC defaultCountryCode) form →
      p.Admits (countryCode defaultCC defaultCountryCode) form' →
      e164 (p.readAs (countryCode defaultCC defaultCountryCode) form) = true →
      e164 (p.readAs (countryCode defaultCC defaultCountryCode) form') = true →
      p.readAs (countryCode defaultCC defaultCountryCode) form =
        p.readAs (countryCode defaultCC defaultCountryCode) form' := by
  constructor
  case mp =>
    intro hsame form form' ha ha' hvalid hvalid'
    have hresult := toE164_eq_some.mpr ⟨hvalid, rfl⟩
    have hresult' := toE164_eq_some.mpr ⟨hvalid', rfl⟩
    have heq := hsame form form' _ _ _ _ ha ha' (p.written_plain form) (p.written_plain form')
      (((p.written_plain form).normalized ha).trans hresult)
      (((p.written_plain form').normalized ha').trans hresult')
    rw [← heq] at hresult'
    exact toE164_inj hresult hresult'
  case mpr =>
    intro hread form form' s s' a b ha ha' hs hs' hnorm hnorm'
    rw [hs.normalized ha] at hnorm
    rw [hs'.normalized ha'] at hnorm'
    have hvalid := (toE164_eq_some.mp hnorm).1
    have hvalid' := (toE164_eq_some.mp hnorm').1
    rw [hread form form' ha ha' hvalid hvalid', hnorm'] at hnorm
    exact (Option.some.inj hnorm).symm

theorem Number.readAs_cases {cc : List Char} (h : p.Admits cc form) :
    p.readAs cc form = p.international ∨ p.readAs cc form = cc ++ p.international ∨
      (cc = p.code ∧ p.subscriber.head? = some '0' ∧ p.readAs cc form = p.subscriber.tail) := by
  cases form with
  | national =>
    by_cases hzero : p.subscriber.head? = some '0'
    case pos => exact .inr (.inr ⟨h, hzero, if_pos hzero⟩)
    case neg => exact .inl (if_neg hzero)
  | bare => exact .inr (.inl rfl)
  | plus => exact .inl rfl
  | zeros => exact .inl rfl

end Numbers

-- What is returned is a number with a plus sign.
theorem normalized_again : Idempotent := by
  intro defaultCC defaultCC' input defaultCountryCode defaultCountryCode' result h
  obtain ⟨digits, hdigits⟩ : ∃ digits, toE164 digits = some result := by
    cases input with
    | none => cases h
    | some s =>
      simp only [normalizePhone, Option.bind_eq_bind, Option.bind_some] at h
      split_ifs at h
      all_goals exact ⟨_, h⟩
  obtain ⟨hvalid, rfl⟩ := toE164_eq_some.mp hdigits
  cases digits with
  | nil => cases hvalid
  | cons c digits =>
    simp only [e164, decide_eq_true_eq, List.all_eq_true] at hvalid
    obtain ⟨hc, hzero, hall, _⟩ := hvalid
    let p : Number := {
      code       := c :: digits
      subscriber := []
      digits     := by simpa [hc] using hall
      leading    := ⟨c, digits, rfl, hzero⟩
    }
    have hinternational : p.international = c :: digits := List.append_nil _
    have hwritten := p.written_plain .plus
    rw [Number.digitsIn, hinternational] at hwritten
    have hnorm : normalizePhone defaultCC' _ defaultCountryCode' = toE164 (p.readAs _ .plus) :=
      hwritten.normalized trivial
    rw [Number.readAs, hinternational, hdigits] at hnorm
    exact hnorm

-- All spellings are normalized to one number exactly when none is taken for another number.
theorem sameNumber_idempotent_iff (defaultCC : String) (defaultCountryCode : Option String) (p : Number) :
    (p.SameNumber defaultCC defaultCountryCode ∧ Idempotent) ↔
      p.Unambiguous (countryCode defaultCC defaultCountryCode) := by
  rw [and_iff_left normalized_again, Number.sameNumber_iff]
  generalize countryCode defaultCC defaultCountryCode = cc
  obtain ⟨d, code, hcode, _⟩ := p.leading
  have hbare : cc ++ p.international = p.international ↔ cc = [] := List.append_left_eq_self
  have hlength : p.subscriber.tail.length < p.international.length := by
    rw [Number.international, hcode, List.length_append, List.length_tail, List.length_cons]
    omega
  have hne : p.subscriber.tail ≠ p.international := fun heq => by
    rw [heq] at hlength
    exact lt_irrefl _ hlength
  have hne' : p.subscriber.tail ≠ cc ++ p.international := fun heq => by
    rw [heq, List.length_append] at hlength
    omega
  constructor
  case mp =>
    intro hread
    constructor
    · by_cases hcc : cc = []
      · exact .inl hcc
      · exact .inr fun ⟨hvalid, hvalid'⟩ => hcc (hbare.mp (hread .bare .plus trivial trivial hvalid' hvalid))
    · intro hcc hzero ⟨hvalid, hvalid'⟩
      have hnational : p.readAs cc .national = p.subscriber.tail := if_pos hzero
      rw [← hnational] at hvalid
      rcases hvalid' with hvalid' | hvalid'
      · exact hne (hnational.symm.trans (hread .national .plus hcc trivial hvalid hvalid'))
      · exact hne' (hnational.symm.trans (hread .national .bare hcc trivial hvalid hvalid'))
  case mpr =>
    rintro ⟨hcode, hnational⟩ form form' ha ha' hvalid hvalid'
    have hsame : e164 p.international = true → e164 (cc ++ p.international) = true →
        cc ++ p.international = p.international := fun hv hv' =>
      hbare.mpr (hcode.resolve_right fun hnot => hnot ⟨hv, hv'⟩)
    rcases Number.readAs_cases ha with heq | heq | ⟨hcc, hzero, heq⟩ <;>
      rcases Number.readAs_cases ha' with heq' | heq' | ⟨hcc', hzero', heq'⟩ <;>
        rw [heq] at hvalid ⊢ <;> rw [heq'] at hvalid' ⊢
    · exact (hsame hvalid hvalid').symm
    · exact absurd ⟨hvalid', .inl hvalid⟩ (hnational hcc' hzero')
    · exact hsame hvalid' hvalid
    · exact absurd ⟨hvalid', .inr hvalid⟩ (hnational hcc' hzero')
    · exact absurd ⟨hvalid, .inl hvalid'⟩ (hnational hcc hzero)
    · exact absurd ⟨hvalid, .inr hvalid'⟩ (hnational hcc hzero)

-- The number of the comment of the module.
def documented : Number where
  code       := ['2', '5', '4']
  subscriber := ['7', '1', '2', '3', '4', '5', '6', '7', '8']
  digits     := List.all_eq_true.mp (by decide)
  leading    := ⟨'2', ['5', '4'], rfl, by decide⟩

-- A number with its country code but without a plus sign is given the code a second time.
theorem spellings_differ :
    ¬∀ defaultCC defaultCountryCode (p : Number), p.SameNumber defaultCC defaultCountryCode ∧ Idempotent := by
  intro hall
  have hbare : normalizePhone "254" (some "254712345678") none = some "+254254712345678" := by decide +kernel
  have hplus : normalizePhone "254" (some "+254712345678") none = some "+254712345678" := by decide +kernel
  have hwritten : documented.Written .bare "254712345678" := documented.written_plain .bare
  have hwritten' : documented.Written .plus "+254712345678" := documented.written_plain .plus
  have heq := (hall "254" none documented).1 .bare .plus _ _ _ _ trivial trivial hwritten hwritten' hbare hplus
  exact absurd heq (by decide)

end Phone
