import WhisperChat.Proofs.Decimal
import WhisperChat.Proofs.Except
import WhisperChat.Settings.Startup

/-!
# What the server starts with

A file of variables adds to the environment and replaces nothing in it (`EnvFile.keeps_load`).  The
server listens on the port of its settings, since the port is what stands behind the last colon of
the address that is parsed (`Config.port_of_address?`).  Opening the database makes one file at most
and turns no file into a database but an empty one (`Directory.spares_openDatabase`).  Together
these say what is the case when the server has started (`starts_as_configured`).
-/

namespace WhisperChat

/-! ## The environment -/

/-- Every variable has in the second environment the value that it has in the first. -/
def Environment.IsKeptBy (env env' : Environment) : Prop :=
  ∀ name value : String, env.lookup name = some value → env'.lookup name = some value

namespace EnvFile

theorem keeps_addLines (scope : Scope) (ls : List (List Char)) :
    scope.environment.IsKeptBy (addLines scope ls).environment := by
  fun_induction addLines scope ls with
  | case1 | case4 | case5 => exact fun _ _ ↦ id
  | case2 scope _ _ _ _ _ _ ih => exact ih
  | case3 =>
    rename_i scope _ _ _ _ _ key value _ environment ih
    intro name given h
    refine ih name given ?_
    change environment.lookup name = some given
    unfold environment
    split
    · exact h
    · rw [List.lookup_append, h, Option.some_or]

theorem keeps_load (env : Environment) (text : String) : env.IsKeptBy (load env text) :=
  keeps_addLines ⟨env, []⟩ _

end EnvFile

theorem Environment.keeps_withFile (env : Environment) (d : Directory) :
    env.IsKeptBy (env.withFile d) := by
  unfold withFile
  split
  · exact EnvFile.keeps_load env _
  · exact fun _ _ ↦ id

/-! ## The settings -/

namespace Config

/-- The settings are those that the variables of the environment give, where they give any. -/
structure IsOf (c : Config) (env : Environment) : Prop where
  secret : c.secret = (env.lookup "HUSH_JWT_SECRET").getD devSecret
  databasePath : c.databasePath = (env.lookup "HUSH_DB_PATH").getD "hush.db"
  host : c.host = (env.lookup "HUSH_HOST").getD "0.0.0.0"
  port : Decimal.natBelow? 0x10000 ((env.lookup "HUSH_PORT").getD "3000") = some c.port
  maxPage : Decimal.natBelow? 0x10000000000000000 ((env.lookup "HUSH_MAX_PAGE").getD "200") =
    some c.maxPage

theorem natBelow?_of_number {bound : Nat} {text : String} {error : String → ConfigError}
    {n : { n : Nat // n < bound }} (h : number bound text error = .ok n) :
    Decimal.natBelow? bound text = some n.val := by
  unfold number at h
  split at h
  case h_1 m hm =>
    split at h
    · cases h
      exact hm
    · cases h
  case h_2 => cases h

theorem isOf_of_ofEnvironment {env : Environment} {c : Config} (h : ofEnvironment env = .ok c) :
    c.IsOf env := by
  unfold ofEnvironment at h
  obtain ⟨port, hport, h⟩ := bind_eq_ok_iff.1 h
  obtain ⟨maxPage, hmaxPage, h⟩ := bind_eq_ok_iff.1 h
  cases h
  exact ⟨rfl, rfl, rfl, natBelow?_of_number hport, natBelow?_of_number hmaxPage⟩

end Config

/-! ## The address -/

namespace SocketAddress

variable {cs rest : List Char}

/-- The digits in front are read, and what follows them is left. -/
theorem exists_of_digits (hexadecimal : Bool) (cs : List Char) :
    ∃ run, cs = run ++ (digits hexadecimal cs).2 ∧
      run.map (digit? hexadecimal) = (digits hexadecimal cs).1.map some := by
  induction cs with
  | nil => exact ⟨[], rfl, rfl⟩
  | cons c cs ih =>
    obtain ⟨run, hcs, hrun⟩ := ih
    unfold digits
    split
    case h_1 d hd => exact ⟨c :: run, congrArg (c :: ·) hcs, by simp [hd, hrun]⟩
    case h_2 => exact ⟨[], rfl, rfl⟩

theorem digits_suffix (hexadecimal : Bool) (cs : List Char) :
    (digits hexadecimal cs).2 <:+ cs := by
  obtain ⟨run, hcs, -⟩ := exists_of_digits hexadecimal cs
  exact ⟨run, hcs.symm⟩

theorem suffix_of_digits {hexadecimal : Bool} {p : Prop} [Decidable p] {m n : Nat}
    (h : (if p then some (m, (digits hexadecimal cs).2) else none) = some (n, rest)) :
    rest <:+ cs := by
  split at h
  · cases h
    exact digits_suffix hexadecimal cs
  · cases h

theorem octet?_suffix {n : Nat} (h : octet? cs = some (n, rest)) : rest <:+ cs :=
  suffix_of_digits h

theorem group?_suffix {n : Nat} (h : group? cs = some (n, rest)) : rest <:+ cs :=
  suffix_of_digits h

theorem number?_suffix {bound n : Nat} (h : number? bound cs = some (n, rest)) : rest <:+ cs :=
  suffix_of_digits h

theorem eq_of_after? {c : Char} (h : after? c cs = some rest) : cs = c :: rest := by
  unfold after? at h
  split at h
  case h_1 => cases h
  case h_2 d cs =>
    split at h
    case isTrue heq =>
      cases h
      rw [heq]
    case isFalse => cases h

theorem after?_suffix {c : Char} (h : after? c cs = some rest) : rest <:+ cs :=
  eq_of_after? h ▸ List.suffix_cons c rest

theorem afterSeparator?_suffix {c : Char} {isFirst : Bool}
    (h : afterSeparator? c isFirst cs = some rest) : rest <:+ cs := by
  unfold afterSeparator? at h
  split at h
  · cases h
    exact List.suffix_rfl
  · exact after?_suffix h

theorem v4?_suffix {octets : List Nat} (h : v4? cs = some (octets, rest)) : rest <:+ cs := by
  unfold v4? at h
  obtain ⟨⟨a, cs₁⟩, h₁, h⟩ := Option.bind_eq_some_iff.1 h
  obtain ⟨cs₂, h₂, h⟩ := Option.bind_eq_some_iff.1 h
  obtain ⟨⟨b, cs₃⟩, h₃, h⟩ := Option.bind_eq_some_iff.1 h
  obtain ⟨cs₄, h₄, h⟩ := Option.bind_eq_some_iff.1 h
  obtain ⟨⟨c, cs₅⟩, h₅, h⟩ := Option.bind_eq_some_iff.1 h
  obtain ⟨cs₆, h₆, h⟩ := Option.bind_eq_some_iff.1 h
  obtain ⟨⟨d, cs₇⟩, h₇, h⟩ := Option.bind_eq_some_iff.1 h
  cases h
  exact (octet?_suffix h₇).trans <| (after?_suffix h₆).trans <| (octet?_suffix h₅).trans <|
    (after?_suffix h₄).trans <| (octet?_suffix h₃).trans <| (after?_suffix h₂).trans <|
    octet?_suffix h₁

theorem groups_suffix (isFirst : Bool) (limit : Nat) (cs : List Char) :
    (groups isFirst limit cs).rest <:+ cs := by
  induction limit generalizing isFirst cs with
  | zero => exact List.suffix_rfl
  | succ limit ih =>
    unfold groups
    split
    case h_1 octets rest hv4 =>
      split at hv4
      · cases hv4
      · obtain ⟨cs', hcs', hv4⟩ := Option.bind_eq_some_iff.1 hv4
        exact (v4?_suffix hv4).trans (afterSeparator?_suffix hcs')
    case h_2 =>
      split
      case h_1 => exact List.suffix_rfl
      case h_2 g rest hgroup =>
        obtain ⟨cs', hcs', hgroup⟩ := Option.bind_eq_some_iff.1 hgroup
        exact (ih false rest).trans ((group?_suffix hgroup).trans (afterSeparator?_suffix hcs'))

theorem v6?_suffix {parts : List Nat} (h : v6? cs = some (parts, rest)) : rest <:+ cs := by
  unfold v6? at h
  have hfront := groups_suffix true 8 cs
  dsimp only at h
  split at h
  case isTrue =>
    cases h
    exact hfront
  case isFalse =>
    obtain ⟨-, -, h⟩ := Option.bind_eq_some_iff.1 h
    obtain ⟨cs₁, h₁, h⟩ := Option.bind_eq_some_iff.1 h
    obtain ⟨cs₂, h₂, h⟩ := Option.bind_eq_some_iff.1 h
    cases h
    exact (groups_suffix true _ cs₂).trans <| (after?_suffix h₂).trans <| (after?_suffix h₁).trans
      hfront

theorem scope_suffix (cs : List Char) : (scope cs).2 <:+ cs := by
  unfold scope
  cases h : (after? '%' cs).bind (number? 0x100000000) with
  | none => exact List.suffix_rfl
  | some pair =>
    obtain ⟨cs', hcs', hnumber⟩ := Option.bind_eq_some_iff.1 h
    exact (number?_suffix hnumber).trans (after?_suffix hcs')

/-- Whichever the version, the port comes last. -/
theorem exists_port_of_read? {a : SocketAddress} (h : read? cs = some (a, rest)) :
    ∃ cs', cs' <:+ cs ∧ port? cs' = some (a.port, rest) := by
  unfold read? at h
  split at h
  case h_1 reading hv4 =>
    cases h
    obtain ⟨⟨octets, cs₁⟩, h₁, hv4⟩ := Option.bind_eq_some_iff.1 hv4
    obtain ⟨⟨port, cs₂⟩, h₂, hv4⟩ := Option.bind_eq_some_iff.1 hv4
    cases hv4
    exact ⟨cs₁, v4?_suffix h₁, h₂⟩
  case h_2 =>
    obtain ⟨cs₁, h₁, h⟩ := Option.bind_eq_some_iff.1 h
    obtain ⟨⟨parts, cs₂⟩, h₂, h⟩ := Option.bind_eq_some_iff.1 h
    obtain ⟨cs₃, h₃, h⟩ := Option.bind_eq_some_iff.1 h
    obtain ⟨⟨port, cs₄⟩, h₄, h⟩ := Option.bind_eq_some_iff.1 h
    cases h
    refine ⟨cs₃, ?_, h₄⟩
    exact (after?_suffix h₃).trans <| (scope_suffix cs₂).trans <| (v6?_suffix h₂).trans <|
      after?_suffix h₁

theorem digit?_eq_some_iff {c : Char} {d : Nat} :
    digit? false c = some d ↔ c.isDigit = true ∧ c.toNat - 48 = d := by
  unfold digit?
  split <;> simp [*]

theorem isDigit_of_map_digit? {ds : List Nat} (h : cs.map (digit? false) = ds.map some) :
    ∀ c ∈ cs, c.isDigit = true := by
  intro c hc
  have hsome : digit? false c ∈ ds.map some := h ▸ List.mem_map_of_mem hc
  obtain ⟨d, -, hd⟩ := List.mem_map.1 hsome
  exact (digit?_eq_some_iff.1 hd.symm).1

theorem numeral_of_map_digit? {ds : List Nat} (h : cs.map (digit? false) = ds.map some) :
    numeral 10 ds = Nat.ofDigitChars 10 cs 0 := by
  unfold numeral Nat.ofDigitChars
  generalize (0 : Nat) = sofar
  induction cs generalizing ds sofar with
  | nil =>
    obtain rfl : ds = [] := List.map_eq_nil_iff.1 h.symm
    rfl
  | cons c cs ih =>
    cases ds with
    | nil => cases h
    | cons d ds =>
      obtain ⟨hd, hds⟩ := List.cons.inj h
      rw [List.foldl_cons, List.foldl_cons, ih hds, ← (digit?_eq_some_iff.1 hd).2, Nat.mul_comm]
      rfl

/-- A port that nothing follows is written by digits behind a colon. -/
theorem exists_run_of_port? {port : Nat} (h : port? cs = some (port, [])) :
    ∃ run : List Char, cs = ':' :: run ∧ (∀ c ∈ run, c.isDigit = true) ∧
      Nat.ofDigitChars 10 run 0 = port := by
  obtain ⟨cs', hcs', h⟩ := Option.bind_eq_some_iff.1 h
  obtain ⟨run, hsplit, hrun⟩ := exists_of_digits false cs'
  have hread : numeral 10 (digits false cs').1 = port ∧ (digits false cs').2 = [] := by
    unfold number? at h
    dsimp only at h
    split at h
    · exact Prod.mk.inj (Option.some.inj h)
    · cases h
  rw [hread.2, List.append_nil] at hsplit
  rw [← hsplit] at hrun
  refine ⟨cs', eq_of_after? hcs', isDigit_of_map_digit? hrun, ?_⟩
  rw [← numeral_of_map_digit? hrun]
  exact hread.1

end SocketAddress

/-- The last colon of a text divides it in one way. -/
theorem eq_of_cons_suffix {c : Char} {l l' cs : List Char} (h : c :: l <:+ cs)
    (h' : c :: l' <:+ cs) (hl : c ∉ l) (hl' : c ∉ l') : l = l' := by
  rcases List.suffix_or_suffix_of_suffix h h' with hsuffix | hsuffix
  · rcases List.suffix_cons_iff.1 hsuffix with heq | hsuffix
    · exact (List.cons.inj heq).2
    · exact absurd (hsuffix.mem (List.mem_cons_self ..)) hl'
  · rcases List.suffix_cons_iff.1 hsuffix with heq | hsuffix
    · exact (List.cons.inj heq).2.symm
    · exact absurd (hsuffix.mem (List.mem_cons_self ..)) hl

/-- A server that has an address has the port of its settings, whatever its host may be. -/
theorem Config.port_of_address? {c : Config} {a : SocketAddress} (h : c.address? = some a) :
    a.port = c.port := by
  have hcolon {run : List Char} (hrun : ∀ c ∈ run, c.isDigit = true) : ':' ∉ run := by
    intro hmem
    cases hrun ':' hmem
  have htext : (c.host ++ ":" ++ Decimal.ofNat c.port).toList =
      c.host.toList ++ ':' :: Decimal.digits c.port := by
    simp [Decimal.ofNat]
  unfold address? SocketAddress.parse? at h
  rw [htext] at h
  split at h
  case h_2 => cases h
  case h_1 address hread =>
    cases h
    obtain ⟨cs, hsuffix, hport⟩ := SocketAddress.exists_port_of_read? hread
    obtain ⟨run, rfl, hrun, hvalue⟩ := SocketAddress.exists_run_of_port? hport
    have hdigits : ∀ c' ∈ Decimal.digits c.port, c'.isDigit = true :=
      fun _ ↦ Decimal.isDigit_of_mem_digits
    have heq := eq_of_cons_suffix hsuffix (List.suffix_append _ _) (hcolon hrun) (hcolon hdigits)
    rw [← hvalue, heq, Decimal.ofDigitChars_digits]

/-! ## The directory -/

/-- Every file of the first directory is in the second as it was, but that an empty one may have
become a database. -/
def Directory.IsSparedBy (d d' : Directory) : Prop :=
  ∀ (name : String) (file : File), d.lookup name = some file →
    d'.lookup name = some file ∨ file = .text "" ∧ d'.lookup name = some .database

namespace Directory

variable {d d' : Directory}

theorem isSparedBy_refl (d : Directory) : d.IsSparedBy d := fun _ _ ↦ Or.inl

theorem lookup_replace (d : Directory) (name name' : String) (file : File) :
    (d.map fun entry ↦ if entry.1 = name then (name, file) else entry).lookup name' =
      (d.lookup name').map fun old ↦ if name' = name then file else old := by
  induction d with
  | nil => rfl
  | cons entry d ih =>
    obtain ⟨first, old⟩ := entry
    rw [List.map_cons]
    by_cases hfirst : first = name
    · subst hfirst
      simp only [if_pos, List.lookup_cons, ih]
      by_cases hname : name' = first
      · simp [hname]
      · simp [hname, beq_false_of_ne hname]
    · simp only [if_neg hfirst, List.lookup_cons, ih]
      by_cases hname : name' = first
      · simp [hname, hfirst]
      · rw [beq_false_of_ne hname]

theorem spares_openFile {setting name : String} {mode : OpenMode}
    (h : d.openFile setting name mode = .ok d') : d.IsSparedBy d' := by
  unfold openFile at h
  intro other file hfile
  split at h
  case h_1 =>
    split at h
    · cases h
      exact .inl (by rw [List.lookup_append, hfile, Option.some_or])
    · cases h
  case h_2 content hcontent =>
    split at h
    · cases h
    · split at h
      · cases h
      case isFalse hempty _ =>
        cases h
        rw [lookup_replace, hfile, Option.map_some]
        by_cases hother : other = name
        · rw [hother, hcontent] at hfile
          cases hfile
          rw [if_pos hother]
          exact .inr ⟨congrArg File.text (not_ne_iff.1 hempty), rfl⟩
        · rw [if_neg hother]
          exact .inl rfl
  case h_3 =>
    cases h
    exact .inl hfile

theorem spares_openDatabase {setting : String} (h : d.openDatabase setting = .ok d') :
    d.IsSparedBy d' := by
  unfold openDatabase at h
  obtain ⟨p, -, h⟩ := bind_eq_ok_iff.1 h
  split at h
  case isTrue =>
    cases h
    exact isSparedBy_refl d
  case isFalse =>
    split at h
    · exact spares_openFile h
    · cases h
    · split at h
      · cases h
        exact isSparedBy_refl d
      · cases h

end Directory

/-! ## Starting -/

/-- A server that has started has its settings from its environment, which the file of variables has
only added to, and listens on their port.  Whether it has started or not, no file is lost. -/
theorem starts_as_configured (env : Environment) (d : Directory) :
    env.IsKeptBy (env.withFile d) ∧ d.IsSparedBy (start env d).2 ∧
      ∀ {c : Config} {a : SocketAddress}, (start env d).1 = .ok (c, a) →
        c.IsOf (env.withFile d) ∧ a.port = c.port := by
  refine ⟨env.keeps_withFile d, ?_⟩
  unfold start
  split
  case h_1 => exact ⟨d.isSparedBy_refl, fun h ↦ nomatch h⟩
  case h_2 config hconfig =>
    split
    case h_1 => exact ⟨d.isSparedBy_refl, fun h ↦ nomatch h⟩
    case h_2 d' hopen =>
      have hspares := Directory.spares_openDatabase hopen
      split
      case h_1 => exact ⟨hspares, fun h ↦ nomatch h⟩
      case h_2 address haddress =>
        refine ⟨hspares, ?_⟩
        rintro c a ⟨⟩
        exact ⟨Config.isOf_of_ofEnvironment hconfig, Config.port_of_address? haddress⟩

end WhisperChat
