import RangeSync.Proofs.Hosts
import RangeSync.Proofs.Paths

/-!
# Authorities are read back from their text

Between the scheme and the path of a URL stand the user, the host and the port, with nothing but a
few marks to keep them apart: the reader looks for the last at sign, for the first colon, and for a
colon outside of brackets. None of the parts may hold the mark behind it. That they do not is what
is known of every URL of a well-known scheme that was read (`RangeSync.Url.IsServed`): the user is
encoded, the host is one that was read, and the port is a number that fits.

So whatever path is put behind the text of an authority, **the authority is read as it was**
(`RangeSync.Url.readAuthority_text`), as long as a slash comes first.
-/

namespace RangeSync.Url

open Text Idna

variable {c : Char} {s rest : List Char} {u : Url} {scheme : String} {usual : Nat}

/-! ### What is known of a URL that was read -/

/-- The user name and the password are encoded, and a password is not empty. -/
structure IsUser (username : String) (password : Option String) : Prop where
  username : ∀ c ∈ username.toList, Part.userInfo.Keeps c
  password : ∀ p, password = some p → p.toList ≠ [] ∧ ∀ c ∈ p.toList, Part.userInfo.Keeps c

/-- A port fits 16 bits, and is not the usual one. -/
def IsPort (usual : Nat) (port : Option Nat) : Prop :=
  ∀ p, port = some p → p ≤ 65535 ∧ p ≠ usual

/-- The URL of a server, as it comes from the reader. -/
structure IsServed (usual : Nat) (u : Url) : Prop where
  hasAuthority : u.hasAuthority = true
  user : IsUser u.username u.password
  host : ∃ host, u.host = some host ∧ specialHost host.toText.toList = .ok host ∧
    IsHostText host.toText.toList
  port : IsPort usual u.port
  path : ∃ rest, u.path.toList = '/' :: rest
  pathChars : ∀ c ∈ u.path.toList, IsInPath c

/-- An encoded text is empty only if the text is. -/
theorem Part.encode_ne_nil {part : Part} (h : s ≠ []) : part.encode s ≠ [] := by
  cases s with
  | nil => exact absurd rfl h
  | cons c rest =>
    rw [Part.encode, List.flatMap_cons, Part.encodeChar]
    split
    · obtain ⟨first, tail, hspells⟩ := exists_spells c
      rw [hspells.encode]
      simp [escapedByte]
    · simp

theorem isUser_readUserInfo (s : List Char) : IsUser (readUserInfo s).1 (readUserInfo s).2 := by
  have hkeeps (t : List Char) :
      ∀ c ∈ (String.ofList (Part.userInfo.encode t)).toList, Part.userInfo.Keeps c := by
    intro c hc
    rw [String.toList_ofList] at hc
    exact Part.keeps_of_mem_encode (by decide) hc
  unfold readUserInfo
  split
  · exact ⟨hkeeps _, fun p hp => nomatch hp⟩
  · exact ⟨hkeeps _, fun p hp => nomatch hp⟩
  · rename_i name _ password hne _
    refine ⟨hkeeps _, fun p hp => ?_⟩
    cases hp
    refine ⟨?_, hkeeps _⟩
    rw [String.toList_ofList]
    exact Part.encode_ne_nil hne

theorem isUser_readAuthorityUser {isSpecial : Bool} {username : String} {password : Option String}
    (h : readAuthorityUser isSpecial s = .ok (username, password, rest)) :
    IsUser username password := by
  have hnone : IsUser "" none :=
    ⟨fun c hc => absurd hc List.not_mem_nil, fun p hp => nomatch hp⟩
  unfold readAuthorityUser at h
  dsimp only at h
  split at h
  · cases h
    exact hnone
  · split at h
    · cases h
    · cases h
      exact hnone
  · cases h
    exact isUser_readUserInfo _

theorem isPort_readPortPart {port : Option Nat}
    (h : readPortPart (some usual) s = .ok (port, rest)) : IsPort usual port := by
  have hdigits (digits : List Char) (hle : valueOf digits ≤ 65535) :
      IsPort usual (readPort.port (some usual) digits) := by
    intro p hp
    unfold readPort.port at hp
    split at hp
    · cases hp
    · rename_i hne
      cases hp
      exact ⟨hle, fun heq => hne (.inr (congrArg some heq.symm))⟩
  unfold readPortPart at h
  split at h
  · unfold readPort at h
    dsimp only at h
    split at h
    · cases h
    · rename_i hle
      split at h
      · split at h
        · cases h
          exact hdigits _ (Nat.not_lt.mp hle)
        · cases h
      · cases h
        exact hdigits _ (Nat.not_lt.mp hle)
  · cases h
    exact fun p hp => nomatch hp

/-- The authority of a well-known scheme is read in three steps. -/
theorem readAuthority_eq_ok_iff : readAuthority scheme (.special usual) s = .ok u ↔
    ∃ username password s₁ host port s₃,
      readAuthorityUser true s = .ok (username, password, s₁) ∧
      (splitHost true false s₁).1 ≠ [] ∧ specialHost (splitHost true false s₁).1 = .ok host ∧
      readPortPart (some usual) (splitHost true false s₁).2 = .ok (port, s₃) ∧
      u = withPath { ofScheme scheme with
        hasAuthority := true, username, password, host := some host, port } true s₃ := by
  unfold readAuthority
  rw [bind_eq_ok_iff]
  constructor
  · rintro ⟨⟨username, password, s₁⟩, huser, h⟩
    dsimp only at h
    split at h
    · cases h
    · rename_i hname
      obtain ⟨host, hhost, h⟩ := bind_eq_ok_iff.mp h
      obtain ⟨⟨port, s₃⟩, hport, h⟩ := bind_eq_ok_iff.mp h
      cases h
      exact ⟨username, password, s₁, host, port, s₃, huser,
        fun hnil => hname (List.isEmpty_iff.mpr hnil), hhost, hport, rfl⟩
  · rintro ⟨username, password, s₁, host, port, s₃, huser, hname, hhost, hport, rfl⟩
    refine ⟨(username, password, s₁), huser, ?_⟩
    dsimp only
    rw [if_neg (by rwa [List.isEmpty_iff])]
    exact bind_eq_ok_iff.mpr ⟨host, hhost, bind_eq_ok_iff.mpr ⟨(port, s₃), hport, rfl⟩⟩

/-- **What is read of a well-known scheme is the URL of a server.** -/
theorem isServed_of_readAuthority (h : readAuthority scheme (.special usual) s = .ok u) :
    u.scheme = scheme ∧ IsServed usual u := by
  obtain ⟨username, password, s₁, host, port, s₃, huser, hname, hhost, hport, rfl⟩ :=
    readAuthority_eq_ok_iff.mp h
  have hpath : (withPath { ofScheme scheme with
      hasAuthority := true, username, password, host := some host, port } true s₃).path.toList =
        (readPath true false (afterSlash true (s₃.takeWhile (!endsPath ·)))).1 := by
    simp [withPath]
  refine ⟨rfl, rfl, isUser_readAuthorityUser huser, ⟨host, rfl, specialHost_toText hhost⟩,
    isPort_readPortPart hport, ?_, ?_⟩
  · rw [hpath]
    exact ⟨_, rfl⟩
  · rw [hpath]
    exact fun c hc => isInPath_of_mem_readPath hc

/-! ### The user -/

/-- The character neither ends an authority nor stands between its parts. -/
def IsInUser (c : Char) : Prop :=
  0x20 < c.toNat ∧ endsAuthority true c = false ∧ c ≠ '@' ∧ c ≠ ':'

theorem Part.Keeps.isInUser (h : Part.userInfo.Keeps c) : IsInUser c := by
  obtain ⟨hlow, -, hset⟩ := h
  have hne (d : Char) (hd : d ∈ Part.userInfo.encoded) : c ≠ d := fun hc => hset (hc ▸ hd)
  have hspace : c.toNat ≠ ' '.toNat := fun hc => hne ' ' (by decide) (Char.toNat_inj.mp hc)
  have hvalue : ' '.toNat = 0x20 := rfl
  refine ⟨by omega, ?_, hne '@' (by decide), hne ':' (by decide)⟩
  simp only [endsAuthority, Bool.true_and, Bool.or_eq_false_iff, beq_eq_false_iff_ne]
  exact ⟨⟨⟨hne '/' (by decide), hne '?' (by decide)⟩, hne '#' (by decide)⟩, hne '\\' (by decide)⟩

/-- The name and the password without the at sign behind them. -/
def userText (u : Url) : List Char :=
  u.username.toList ++ match u.password with
    | some p => ':' :: p.toList
    | none => []

theorem toList_userInfoText (u : Url) : u.userInfoText.toList =
    if u.username.isEmpty && u.password.isNone then [] else u.userText ++ ['@'] := by
  unfold userInfoText userText
  split
  · rfl
  · cases u.password <;> simp

/-- The user is read as it was. -/
theorem readUserInfo_userText (h : IsServed usual u) :
    readUserInfo u.userText = (u.username, u.password) := by
  have hname : ∀ c ∈ u.username.toList, (c == ':') = false := fun c hc =>
    beq_eq_false_iff_ne.mpr (h.user.username c hc).isInUser.2.2.2
  unfold readUserInfo userText
  rcases hpassword : u.password with _ | p
  · simp only [List.append_nil, cutAt?_of_forall hname]
    rw [Part.Keeps.encode h.user.username, String.ofList_toList]
  · obtain ⟨hne, hkeeps⟩ := h.user.password p hpassword
    rw [cutAt?_append (p := (· == ':')) (a := ':') (beq_self_eq_true _) hname]
    cases hp : p.toList with
    | nil => exact absurd hp hne
    | cons c rest =>
      simp only
      rw [← hp, Part.Keeps.encode h.user.username, Part.Keeps.encode hkeeps, String.ofList_toList,
        String.ofList_toList]

theorem IsServed.of_mem_userText (h : IsServed usual u) (hc : c ∈ u.userText) :
    0x20 < c.toNat ∧ endsAuthority true c = false := by
  have hkeeps {c : Char} (h : Part.userInfo.Keeps c) :
      0x20 < c.toNat ∧ endsAuthority true c = false := ⟨h.isInUser.1, h.isInUser.2.1⟩
  unfold userText at hc
  rcases List.mem_append.mp hc with hc | hc
  · exact hkeeps (h.user.username c hc)
  · rcases hpassword : u.password with _ | p
    · rw [hpassword] at hc
      exact absurd hc List.not_mem_nil
    · rw [hpassword] at hc
      rcases List.mem_cons.mp hc with rfl | hc
      · decide
      · exact hkeeps ((h.user.password p hpassword).2 c hc)

/-- Without an at sign in it, a user has neither a name nor a password. -/
theorem userText_ne_nil (h : (u.username.isEmpty && u.password.isNone) = false) :
    u.userText ≠ [] := by
  unfold userText
  cases hpassword : u.password with
  | none => simpa [hpassword] using h
  | some p => simp

/-- The authority ends at the slash behind it. -/
theorem takeWhile_authority (rest : List Char) (h : ∀ c ∈ s, endsAuthority true c = false) :
    (s ++ '/' :: rest).takeWhile (!endsAuthority true ·) = s ∧
      (s ++ '/' :: rest).dropWhile (!endsAuthority true ·) = '/' :: rest :=
  takeWhile_dropWhile_append (fun c hc => by rw [h c hc]; rfl) rfl

/-- The user is found before the last at sign, if there is one. -/
theorem readAuthorityUser_text (h : IsServed usual u)
    (hs : ∀ c ∈ s, endsAuthority true c = false ∧ c ≠ '@') :
    readAuthorityUser true (u.userInfoText.toList ++ s ++ '/' :: rest) =
      .ok (u.username, u.password, s ++ '/' :: rest) := by
  have hat : ∀ c ∈ s, (c == '@') = false := fun c hc => beq_eq_false_iff_ne.mpr (hs c hc).2
  have hends : ∀ c ∈ s, endsAuthority true c = false := fun c hc => (hs c hc).1
  have htext := toList_userInfoText u
  by_cases hbare : (u.username.isEmpty && u.password.isNone) = true
  · -- There is no at sign at all.
    obtain ⟨htake, hdrop⟩ := takeWhile_authority rest hends
    rw [if_pos hbare] at htext
    rw [htext, List.nil_append, readAuthorityUser, htake, hdrop, cutAtLast?_of_forall hat]
    rw [Bool.and_eq_true, Option.isNone_iff_eq_none] at hbare
    rw [hbare.2, String.isEmpty_iff.mp hbare.1]
  · -- The last at sign is the one behind the user, since there is none in the host.
    have hwhole : ∀ c ∈ u.userText ++ '@' :: s, endsAuthority true c = false := by
      intro c hc
      rcases List.mem_append.mp hc with hc | hc
      · exact (h.of_mem_userText hc).2
      · rcases List.mem_cons.mp hc with rfl | hc
        · decide
        · exact hends c hc
    obtain ⟨htake, hdrop⟩ := takeWhile_authority rest hwhole
    rw [if_neg hbare] at htext
    rw [htext, List.append_assoc u.userText, List.singleton_append, readAuthorityUser, htake, hdrop,
      cutAtLast?_append (p := (· == '@')) (a := '@') (beq_self_eq_true _) hat]
    cases huser : u.userText with
    | nil => exact absurd huser (userText_ne_nil (Bool.not_eq_true _ ▸ hbare))
    | cons c user =>
      simp only
      rw [← huser, readUserInfo_userText h]

/-! ### The host and the port -/

/-- The port with the colon in front of it. -/
def portText (u : Url) : List Char :=
  match u.port with
  | some p => ':' :: (decimal p).toList
  | none => []

/-- Characters of a host are passed, a colon only inside of brackets. -/
theorem splitHost_append {inBrackets : Bool} (h : ∀ c ∈ s, endsAuthority true c = false ∧
      c ≠ '[' ∧ c ≠ ']' ∧ (c = ':' → inBrackets = true)) :
    splitHost true inBrackets (s ++ rest) =
      (s ++ (splitHost true inBrackets rest).1, (splitHost true inBrackets rest).2) := by
  induction s with
  | nil => rfl
  | cons c s ih =>
    rw [List.forall_mem_cons] at h
    obtain ⟨⟨hends, hopen, hclose, hcolon⟩, hrest⟩ := h
    have hgoes : ((c == ':' && !inBrackets) || endsAuthority true c) = false := by
      rw [hends, Bool.or_false, Bool.and_eq_false_iff, beq_eq_false_iff_ne]
      by_cases hc : c = ':'
      · exact .inr (by rw [hcolon hc]; rfl)
      · exact .inl hc
    rw [List.cons_append, splitHost, hgoes, beq_eq_false_iff_ne.mpr hopen,
      beq_eq_false_iff_ne.mpr hclose]
    simp only [Bool.false_eq_true, if_false, ih hrest]
    rfl

/-- A host ends at a colon or a slash. -/
theorem splitHost_of_stop (hc : c = ':' ∨ c = '/') :
    splitHost true false (c :: rest) = ([], c :: rest) := by
  have hstop : ((c == ':' && !false) || endsAuthority true c) = true := by
    rcases hc with rfl | rfl <;> rfl
  rw [splitHost, hstop]
  rfl

theorem of_isForbidden (h : isForbidden c = false) :
    0x20 < c.toNat ∧ endsAuthority true c = false ∧ c ≠ '@' ∧ c ≠ ':' ∧ c ≠ '[' ∧ c ≠ ']' := by
  simp only [isForbidden, Bool.or_eq_false_iff, decide_eq_false_iff_not, Nat.not_le,
    List.contains_eq_mem] at h
  obtain ⟨⟨hlow, -⟩, hset⟩ := h
  have hne (d : Char) (hd : d ∈ ['%', '#', '/', ':', '<', '>', '?', '@', '[', '\\', ']', '^', '|']) :
      c ≠ d := fun hc => hset (hc ▸ hd)
  refine ⟨hlow, ?_, hne '@' (by decide), hne ':' (by decide), hne '[' (by decide),
    hne ']' (by decide)⟩
  simp only [endsAuthority, Bool.true_and, Bool.or_eq_false_iff, beq_eq_false_iff_ne]
  exact ⟨⟨⟨hne '/' (by decide), hne '?' (by decide)⟩, hne '#' (by decide)⟩, hne '\\' (by decide)⟩

/-- What is known of a character in brackets. -/
theorem of_mem_brackets (h : c = ':' ∨ isForbidden c = false) :
    0x20 < c.toNat ∧ endsAuthority true c = false ∧ c ≠ '@' ∧ c ≠ '[' ∧ c ≠ ']' := by
  rcases h with rfl | h
  · decide
  · obtain ⟨hlow, hends, hat, -, hbrackets⟩ := of_isForbidden h
    exact ⟨hlow, hends, hat, hbrackets⟩

/-- No character of a host ends the authority, or could be taken for the end of a user. -/
theorem IsHostText.of_mem (h : IsHostText s) (hc : c ∈ s) :
    0x20 < c.toNat ∧ endsAuthority true c = false ∧ c ≠ '@' := by
  obtain ⟨-, hplain | ⟨inner, rfl, hinner⟩⟩ := h
  · obtain ⟨hlow, hends, hat, -⟩ := of_isForbidden (hplain c hc)
    exact ⟨hlow, hends, hat⟩
  · rw [List.mem_append, List.mem_cons, List.mem_singleton] at hc
    rcases hc with (rfl | hc) | rfl
    · decide
    · obtain ⟨hlow, hends, hat, -⟩ := of_mem_brackets (hinner c hc)
      exact ⟨hlow, hends, hat⟩
    · decide

/-- **The text of a host is found again**, whether it stands in brackets or not. -/
theorem splitHost_text (h : IsHostText s) (hc : c = ':' ∨ c = '/') :
    splitHost true false (s ++ c :: rest) = (s, c :: rest) := by
  obtain ⟨-, hplain | ⟨inner, rfl, hinner⟩⟩ := h
  · rw [splitHost_append, splitHost_of_stop hc, List.append_nil]
    intro d hd
    obtain ⟨-, hends, -, hcolon, hopen, hclose⟩ := of_isForbidden (hplain d hd)
    exact ⟨hends, hopen, hclose, fun heq => absurd heq hcolon⟩
  · have hclose : splitHost true true (']' :: c :: rest) = ([']'], c :: rest) := by
      rw [splitHost]
      simp [endsAuthority, splitHost_of_stop hc]
    have hinside : splitHost true true (inner ++ ']' :: c :: rest) =
        (inner ++ [']'], c :: rest) := by
      rw [splitHost_append, hclose]
      intro d hd
      obtain ⟨-, hends, -, hopen, hclose⟩ := of_mem_brackets (hinner d hd)
      exact ⟨hends, hopen, hclose, fun _ => rfl⟩
    rw [List.append_assoc, List.cons_append, splitHost]
    simp [endsAuthority, hinside]

/-- **The port is read as it was**, since it is not the usual one. -/
theorem readPortPart_text (h : IsServed usual u) :
    readPortPart (some usual) (u.portText ++ '/' :: rest) = .ok (u.port, '/' :: rest) := by
  unfold portText
  rcases hport : u.port with _ | p
  · rfl
  · obtain ⟨hle, hne⟩ := h.port p hport
    obtain ⟨hdigits, hall⟩ := decimal_isDigit p
    have hrun : ((decimal p).toList ++ '/' :: rest).takeWhile isDigit = (decimal p).toList ∧
        ((decimal p).toList ++ '/' :: rest).dropWhile isDigit = '/' :: rest :=
      takeWhile_dropWhile_append hall rfl
    have hport : readPort.port (some usual) (decimal p).toList = some p := by
      rw [readPort.port, valueOf_decimal, if_neg]
      rintro (hnil | heq)
      · exact hdigits (List.isEmpty_iff.mp hnil)
      · exact hne (Option.some.inj heq).symm
    simp only [List.cons_append, readPortPart, readPort, hrun.1, hrun.2, valueOf_decimal, hport]
    rw [if_neg (Nat.not_lt.mpr hle)]
    rfl

/-! ### The authority -/

theorem toList_hostText {host : Host} (h : u.host = some host) :
    u.hostText.toList = host.toText.toList ++ u.portText := by
  rw [hostText, h, portText, String.toList_append]
  cases u.port with
  | none => rfl
  | some p => simp

theorem of_mem_portText (hc : c ∈ u.portText) :
    0x20 < c.toNat ∧ endsAuthority true c = false ∧ c ≠ '@' := by
  unfold portText at hc
  cases hport : u.port with
  | none =>
    rw [hport] at hc
    exact absurd hc List.not_mem_nil
  | some p =>
    rw [hport] at hc
    rcases List.mem_cons.mp hc with rfl | hc
    · decide
    · obtain ⟨hlow, hends, hat, -⟩ := of_isForbidden (of_isDigit ((decimal_isDigit p).2 c hc)).2.1
      exact ⟨hlow, hends, hat⟩

/-- No character of the host and the port ends the authority. -/
theorem IsServed.of_mem_hostText (h : IsServed usual u) (hc : c ∈ u.hostText.toList) :
    0x20 < c.toNat ∧ endsAuthority true c = false ∧ c ≠ '@' := by
  obtain ⟨host, hhost, -, hshape⟩ := h.host
  rw [toList_hostText hhost, List.mem_append] at hc
  rcases hc with hc | hc
  · exact IsHostText.of_mem hshape hc
  · exact of_mem_portText hc

/-- **An authority is read as it was**, in front of any path. -/
theorem readAuthority_text (h : IsServed usual u) :
    readAuthority u.scheme (.special usual)
        (u.userInfoText.toList ++ u.hostText.toList ++ '/' :: rest) =
      .ok (withPath u true ('/' :: rest)) := by
  obtain ⟨host, hhost, hread, hshape⟩ := h.host
  have hstop : ∃ c t, u.portText ++ '/' :: rest = c :: t ∧ (c = ':' ∨ c = '/') := by
    unfold portText
    cases u.port with
    | none => exact ⟨_, _, rfl, .inr rfl⟩
    | some p => exact ⟨_, _, rfl, .inl rfl⟩
  have hsplit : splitHost true false (u.hostText.toList ++ '/' :: rest) =
      (host.toText.toList, u.portText ++ '/' :: rest) := by
    obtain ⟨c, t, htext, hc⟩ := hstop
    rw [toList_hostText hhost, List.append_assoc, htext]
    exact splitHost_text hshape hc
  have hchars : ∀ c ∈ u.hostText.toList, endsAuthority true c = false ∧ c ≠ '@' :=
    fun c hc => (h.of_mem_hostText hc).2
  refine readAuthority_eq_ok_iff.mpr ⟨u.username, u.password, _, host, u.port, '/' :: rest,
    readAuthorityUser_text h hchars, ?_, ?_, ?_, ?_⟩
  · rw [hsplit]
    exact hshape.1
  · rw [hsplit]
    exact hread
  · rw [hsplit]
    exact readPortPart_text h
  · -- The parts that are not read again are those that the path brings.
    cases u with
    | mk _ hasAuthority _ _ host' =>
      obtain rfl : hasAuthority = true := h.hasAuthority
      obtain rfl : host' = some host := hhost
      rfl

end RangeSync.Url
