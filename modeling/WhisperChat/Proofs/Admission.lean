import WhisperChat.Gateway.Admission
import WhisperChat.Proofs.Router

/-!
# Who is admitted

A client gives its token in an address, where some characters stand for others or end a part.  No
token character does, so that the gateway reads the token as it was given and admits with it the
user whom the token names (`Admission.bearer_address`): the user for whom the service answers
requests with the same token (`Admission.bearer_address_eq_ok_iff`).
-/

namespace WhisperChat

namespace Uri

variable {cs : List Char}

theorem toList_loop (bytes : ByteArray) (i : Nat) (before : List UInt8) :
    ByteArray.toList.loop bytes i before = before.reverse ++ bytes.data.toList.drop i := by
  fun_induction ByteArray.toList.loop bytes i before with
  | case1 i before hlt ih =>
    have hlength : i < bytes.data.toList.length := hlt
    have hbyte : bytes.get! i = bytes.data.toList[i] := getElem!_pos bytes.data i hlt
    rw [ih, List.drop_eq_getElem_cons hlength, List.reverse_cons, List.append_assoc, hbyte]
    rfl
  | case2 i before hge =>
    have hlength : bytes.data.toList.length ≤ i := Nat.le_of_not_lt hge
    rw [List.drop_eq_nil_of_le hlength, List.append_nil]

theorem bytes_eq (cs : List Char) : bytes cs = cs.flatMap String.utf8EncodeChar := by
  have hbytes : (String.ofList cs).toUTF8 = (cs.flatMap String.utf8EncodeChar).toByteArray :=
    String.toByteArray_ofList
  rw [bytes, hbytes, ByteArray.toList, toList_loop, List.data_toByteArray]
  rfl

theorem fromUTF8?_bytes (cs : List Char) :
    String.fromUTF8? ⟨(bytes cs).toArray⟩ = some (String.ofList cs) := by
  have hbytes : (⟨(bytes cs).toArray⟩ : ByteArray) = (String.ofList cs).toByteArray := by
    rw [String.toByteArray_ofList, bytes_eq]
    exact ByteArray.ext List.data_toByteArray.symm
  rw [hbytes, String.fromUTF8?, dif_pos (String.ofList cs).isValidUTF8]
  rfl

theorem split_of_notMem {α : Type} [DecidableEq α] {separator : α} {l : List α}
    (h : separator ∉ l) : split separator l = [l] := by
  induction l with
  | nil => rfl
  | cons a l ih =>
    rw [List.mem_cons, not_or] at h
    rw [split, ih h.2]
    exact if_neg (Ne.symm h.1)

theorem percentDecode_of_notMem {bs : List UInt8} (h : 37 ∉ bs) : percentDecode bs = bs := by
  fun_induction percentDecode bs with
  | case1 | case2 => exact absurd List.mem_cons_self h
  | case3 b rest _ ih => rw [ih fun hmem ↦ h (List.mem_cons_of_mem _ hmem)]
  | case4 => rfl

theorem notMem_bytes (h : cs.all Token.isTokenChar = true) : 37 ∉ bytes cs := by
  rw [List.all_eq_true] at h
  rw [bytes_eq, List.mem_flatMap]
  rintro ⟨c, hc, hmem⟩
  have hnot : 37 ∉ String.utf8EncodeChar c :=
    Token.forall_of_isTokenChar (p := fun c ↦ 37 ∉ String.utf8EncodeChar c) (by decide) (h c hc)
  exact hnot hmem

theorem notMem_of_all {c : Char} (h : cs.all Token.isTokenChar = true)
    (hc : Token.isTokenChar c = false) : c ∉ cs := by
  intro hmem
  rw [List.all_eq_true] at h
  rw [h c hmem] at hc
  cases hc

theorem formText_of_all (h : cs.all Token.isTokenChar = true) :
    formText cs = String.ofList cs := by
  have hspaced : (cs.map fun c ↦ if c = '+' then ' ' else c) = cs := by
    refine (List.map_congr_left fun c hc ↦ if_neg ?_).trans (List.map_id' cs)
    rintro rfl
    exact notMem_of_all h rfl hc
  rw [formText, hspaced, percentDecode_of_notMem (notMem_bytes h), fromUTF8?_bytes]
  rfl

end Uri

namespace Admission

variable {decode : Token.Decoder} {secret token : String} {now : Nat}

theorem query_address (htoken : token.toList.all Token.isTokenChar = true) :
    Uri.query (address ("token=" ++ token)) = "token=".toList ++ token.toList := by
  have haddress : (address ("token=" ++ token)).toList =
      "/gateway".toList ++ '?' :: ("token=".toList ++ token.toList) := by
    simp [address]
  have hwhole : (address ("token=" ++ token)).toList.takeWhile (· ≠ '#') =
      (address ("token=" ++ token)).toList := by
    rw [List.takeWhile_eq_self_iff]
    intro c hc
    rw [decide_eq_true_eq]
    rintro rfl
    rw [haddress] at hc
    simp [Uri.notMem_of_all htoken (c := '#') rfl] at hc
  have hpath : Uri.withoutAuthority (address ("token=" ++ token)).toList =
      (address ("token=" ++ token)).toList := by
    rw [haddress]
    rfl
  have hfront : "/gateway".toList.all (· ≠ '?') = true := by decide
  rw [Uri.query, hpath, hwhole, haddress,
    List.dropWhile_append_of_pos (List.all_eq_true.1 hfront)]
  rfl

theorem formPair_token (htoken : token.toList.all Token.isTokenChar = true) :
    Uri.formPair ("token=".toList ++ token.toList) = ("token", token) := by
  have hname : ("token=".toList ++ token.toList).takeWhile (· ≠ '=') = "token".toList := rfl
  have hvalue : (("token=".toList ++ token.toList).dropWhile (· ≠ '=')).drop 1 = token.toList := rfl
  rw [Uri.formPair, hname, hvalue, Uri.formText_of_all (by decide), Uri.formText_of_all htoken,
    String.ofList_toList, String.ofList_toList]

/-- The gateway reads a token as it was given. -/
theorem single?_address (htoken : token.toList.all Token.isTokenChar = true) :
    Uri.single? (Uri.formPairs (Uri.query (address ("token=" ++ token)))) "token" =
      some (some token) := by
  have hpart : '&' ∉ "token=".toList ++ token.toList := by
    simp [Uri.notMem_of_all htoken (c := '&') rfl]
  have hpairs : Uri.formPairs ("token=".toList ++ token.toList) = [("token", token)] := by
    rw [Uri.formPairs, Uri.split_of_notMem hpart]
    exact congrArg (fun pair ↦ [pair]) (formPair_token htoken)
  rw [query_address htoken, hpairs]
  rfl

/-- With a token in its address a client is admitted as the user whom the token names, if it is
accepted, and refused otherwise. -/
theorem bearer_address (htoken : token.toList.all Token.isTokenChar = true) :
    bearer decode secret now (address ("token=" ++ token)) =
      (decode secret token now).elim (.error .unauthorized) fun claims ↦ .ok claims.subject := by
  rw [bearer, single?_address htoken]
  dsimp only
  cases decode secret token now <;> rfl

/-- With a token that the program accepts a client is admitted. -/
theorem bearer_address_of_decode? {claims : Claims}
    (h : Token.decode? secret token now = some claims) :
    bearer Token.decode? secret now (address ("token=" ++ token)) = .ok claims.subject := by
  rw [bearer_address (Token.all_isTokenChar_of_decode? h), h]
  rfl

/-- The gateway admits the client as the user for whom the service answers a request with the same
token, and nobody else. -/
theorem bearer_address_eq_ok_iff {user : UserId} {r : Http.Request}
    (htoken : token.toList.all Token.isTokenChar = true)
    (hvalue : r.authorization = some ("Bearer " ++ token)) :
    bearer decode secret now (address ("token=" ++ token)) = .ok user ↔
      ∃ claims, r.claims? decode secret now = some claims ∧ claims.subject = user := by
  have hheader : token.toList.all Http.isHeaderChar = true := by
    rw [List.all_eq_true] at htoken ⊢
    exact fun c hc ↦ Http.isHeaderChar_of_isTokenChar (htoken c hc)
  have hclaims (claims : Claims) :
      r.claims? decode secret now = some claims ↔ decode secret token now = some claims := by
    rw [Http.claims?_eq_some_iff]
    constructor
    · rintro ⟨other, hother, -, hdecode⟩
      have hsame : other = token := by
        rw [hvalue, Option.some.injEq] at hother
        exact (String.append_right_inj _).1 hother.symm
      rwa [hsame] at hdecode
    · exact fun hdecode ↦ ⟨token, hvalue, hheader, hdecode⟩
  rw [bearer_address htoken]
  simp only [hclaims]
  cases decode secret token now <;> simp

end Admission

end WhisperChat
