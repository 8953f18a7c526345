import PrivacyGuard.Model.RedsocksConf

set_option autoImplicit false

/-! # What redsocks reads

The file is read back as it was meant when the credentials can stand between quotes. For the
converse the values are taken in the order in which they stand in the file: up to the first one
that cannot be read back the reader is where it should be, and what is left of the file behind
its next quote is too short for the statements that are still missing. -/

namespace PrivacyGuard.RedsocksConf

open Config

/-- The statements that do not depend on the proxy. -/
def localItems : List Item := [
  ⟨"local_ip".toList, "127.0.0.1".toList⟩,
  ⟨"local_port".toList, "12345".toList⟩]

def proxyItems (host : String) (port : Nat) (type : String) : List Item := [
  ⟨"ip".toList, host.toList⟩,
  ⟨"port".toList, (toString port).toList⟩,
  ⟨"type".toList, type.toList⟩]

/-- What was asked for. -/
def asked (host : String) (port : Nat) (type u p : String) : List Block := [baseBlock, {
  name := "redsocks".toList
  items := localItems ++ proxyItems host port type ++
    [⟨"login".toList, u.toList⟩, ⟨"password".toList, p.toList⟩] }]

section

variable {Q : Quoting}

/-! ## The values without quotes -/

/-- Neither blanks nor anything that has a meaning. -/
def Plain (v : List Char) : Prop := ∀ c ∈ v, isBlank c = false ∧ c ∉ ['{', '}', ';', '"']

instance (v : List Char) : Decidable (Plain v) :=
  List.decidableBAll (fun c => isBlank c = false ∧ c ∉ ['{', '}', ';', '"']) v

theorem Plain.unquoted {v : List Char} (h : Plain v) : Unquoted v := by
  constructor
  · intro c hc
    obtain ⟨hblank, hmem⟩ := h c hc
    exact ⟨hblank, fun hc => hmem (List.mem_append_left ['"'] hc)⟩
  · rintro w rfl
    exact (h '"' List.mem_cons_self).2 (by decide)

theorem Plain.no_quote {v : List Char} (h : Plain v) : '"' ∉ v :=
  fun hmem => (h '"' hmem).2 (by decide)

theorem plain_port (port : Nat) : Plain (toString port).toList := by
  intro c hc
  have hdigit := isDigit_of_mem_port hc
  have hne : ∀ d : Char, d.isDigit = false → c ≠ d := by
    rintro d hd rfl
    rw [hdigit] at hd
    cases hd
  constructor
  · simp [isBlank, hne]
  · simp [hne]

theorem plain_type : ∀ type ∈ knownTypes,
    confType type = type ∧ 6 ≤ type.toList.length ∧ Plain type.toList := by
  decide +kernel

/-! ## Up to the proxy -/

theorem run_confHead : ∃ t, Blank t ∧
    Reader.run Q ⟨[], .outside []⟩ confHead.toList =
      some ⟨[baseBlock], .key ⟨"redsocks".toList, localItems⟩ t⟩ := by
  have hbase : List.Forall₂ (ReadAs Q) baseLines baseBlock.items := by
    refine .cons (reads_bare (by decide) ?_) (.cons (reads_bare (by decide) ?_) (.cons
      (reads_quoted (by decide) (quotable_of_not_mem Q (by decide) (by decide))) (.cons
      (reads_bare (by decide) ?_) (.cons (reads_bare (by decide) ?_) .nil))))
    all_goals exact Plain.unquoted (by decide +kernel)
  have hlocal : List.Forall₂ (ReadAs Q) localLines localItems := by
    refine .cons (reads_bare (by decide) ?_) (.cons (reads_bare (by decide) ?_) .nil)
    all_goals exact Plain.unquoted (by decide +kernel)
  obtain ⟨t, ht, hrun⟩ := run_statements hbase (d := []) (b := ⟨"base".toList, []⟩)
    (t := ['\n']) (by decide)
  obtain ⟨t', ht', hrun'⟩ := run_statements hlocal (d := [baseBlock])
    (b := ⟨"redsocks".toList, []⟩) (t := ['\n']) (by decide)
  have hnewline : Reader.run Q ⟨[baseBlock], .outside ['\n']⟩ "\n".toList =
      some ⟨[baseBlock], .outside ['\n', '\n']⟩ := rfl
  refine ⟨t', ht', ?_⟩
  rw [toList_confHead, Reader.run_append, Reader.run_open (by decide) (by decide),
    Option.bind_some, Reader.run_append, hrun, Option.bind_some, Reader.run_append,
    Reader.run_close ht, Option.bind_some, Reader.run_append]
  refine (congrArg (Option.bind · _) hnewline).trans ?_
  rw [Option.bind_some, Reader.run_append, Reader.run_open (by decide) (by decide),
    Option.bind_some, hrun']
  rfl

variable {host type u p : String} (port : Nat)

theorem readAs_proxyLines (hhost : Unquoted host.toList) (htype : type ∈ knownTypes) :
    List.Forall₂ (ReadAs Q) (proxyLines host port type) (proxyItems host port type) := by
  obtain ⟨hconf, -, hplain⟩ := plain_type type htype
  rw [proxyLines, hconf]
  exact .cons (reads_bare (by decide) hhost)
    (.cons (reads_bare (by decide) (plain_port port).unquoted)
    (.cons (reads_bare (by decide) hplain.unquoted) .nil))

/-- Up to the credentials. -/
theorem run_proxyLines (hhost : Unquoted host.toList) (htype : type ∈ knownTypes) : ∃ t, Blank t ∧
    ∀ s, Reader.run Q ⟨[], .outside []⟩
        (confHead.toList ++ ((proxyLines host port type).flatten ++ s)) =
      Reader.run Q ⟨[baseBlock],
        .key ⟨"redsocks".toList, localItems ++ proxyItems host port type⟩ t⟩ s := by
  obtain ⟨t, ht, hhead⟩ := run_confHead (Q := Q)
  obtain ⟨t', ht', hrun⟩ := run_statements (readAs_proxyLines port hhost htype)
    (Q := Q) (d := [baseBlock]) (b := ⟨"redsocks".toList, localItems⟩) ht
  refine ⟨t', ht', fun s => ?_⟩
  rw [Reader.run_append, hhead, Option.bind_some, Reader.run_append, hrun, Option.bind_some]

/-- Credentials that can stand between quotes are read back. -/
theorem read_of_quotable (hhost : Unquoted host.toList) (htype : type ∈ knownTypes) (hu : u ≠ "")
    (hp : p ≠ "") (hlogin : Quotable Q u.toList) (hpassword : Quotable Q p.toList) :
    Config.read Q (generateRedsocksConf ⟨host, port, type, some u, some p⟩).toList =
      some (asked host port type u p) := by
  obtain ⟨t, ht, hrun⟩ := run_proxyLines (Q := Q) port hhost htype
  have hcredentials : List.Forall₂ (ReadAs Q)
      [statement "login".toList (quote u.toList), statement "password".toList (quote p.toList)]
      [⟨"login".toList, u.toList⟩, ⟨"password".toList, p.toList⟩] :=
    .cons (reads_quoted (by decide) hlogin) (.cons (reads_quoted (by decide) hpassword) .nil)
  obtain ⟨t', ht', hrun'⟩ := run_statements hcredentials (d := [baseBlock])
    (b := ⟨"redsocks".toList, localItems ++ proxyItems host port type⟩) ht
  have htext : (generateRedsocksConf ⟨host, port, type, some u, some p⟩).toList =
      confHead.toList ++ ((proxyLines host port type).flatten ++
        (([statement "login".toList (quote u.toList),
          statement "password".toList (quote p.toList)] : List (List Char)).flatten ++
        "\x7d\n".toList)) := by
    rw [toList_conf host port type hu hp, List.flatten_cons, List.flatten_cons, List.flatten_nil,
      List.append_nil, List.append_assoc (statement "login".toList _)]
  rw [Config.read, htext, hrun, Reader.run_append, hrun', Option.bind_some, Reader.run_close ht']
  rfl

/-! ## What is not read back -/

variable {port}

/-- Everything that was asked for has been read at the end. -/
theorem items_of_read {s : List Char} (h : Config.read Q s = some (asked host port type u p)) :
    ∃ r, Reader.run Q ⟨[], .outside []⟩ s = some r ∧ r.finish ≠ none ∧
      r.items = baseBlock.items ++ (localItems ++ proxyItems host port type ++
        [⟨"login".toList, u.toList⟩, ⟨"password".toList, p.toList⟩]) := by
  obtain ⟨r, hrun, hfinish⟩ := Option.bind_eq_some_iff.mp h
  refine ⟨r, hrun, by rw [hfinish]; exact Option.some_ne_none _, ?_⟩
  rw [Reader.items_of_finish hfinish]
  exact congrArg (baseBlock.items ++ ·) (List.append_nil _)

/-- The text behind the credentials. -/
theorem quotable_of_asked (hhost : Unquoted host.toList) (htype : type ∈ knownTypes) (hu : u ≠ "")
    (hp : p ≠ "")
    (h : Config.read Q (generateRedsocksConf ⟨host, port, type, some u, some p⟩).toList =
      some (asked host port type u p)) : Quotable Q u.toList ∧ Quotable Q p.toList := by
  obtain ⟨r, hread, hfinish, hitems⟩ := items_of_read h
  obtain ⟨t, ht, hrun⟩ := run_proxyLines (Q := Q) port hhost htype
  rw [toList_conf host port type hu hp, hrun] at hread
  have hlogin : Quotable Q u.toList := by
    have hquoted := hread
    rw [quote, run_quote ht (by decide), List.append_assoc, List.singleton_append] at hquoted
    refine quotable_of_read [⟨"password".toList, p.toList⟩] hquoted hfinish ?_ ?_
    · rw [hitems]
      simp [Reader.items, Mode.items]
    · intro z u' hz
      -- the next quote is the one before the password
      have htext :
          ";\n".toList ++ (statement "password".toList (quote p.toList) ++ "\x7d\n".toList) =
          [] ++ (";\n    password = ".toList ++
            '"' :: (p.toList ++ ['"'] ++ ";\n".toList ++ "\x7d\n".toList)) := by
        simp only [statement_eq, quote, List.append_assoc, List.cons_append]
        rfl
      have hlen := length_le_of_quote (hz.symm.trans htext) (Nat.zero_le _) (by decide)
      simp only [List.length_append, List.length_singleton] at hlen
      have hsize : sizeOfItems [⟨"password".toList, p.toList⟩] = 8 + p.toList.length := rfl
      have hends : (";\n".toList).length = 2 ∧ ("\x7d\n".toList).length = 2 := by decide
      rw [hsize]
      omega
  refine ⟨hlogin, ?_⟩
  rw [Reader.run_append, reads_quoted (by decide) hlogin _ _ _ ht, Option.bind_some, quote,
    run_quote (by decide) (by decide), List.append_assoc, List.singleton_append] at hread
  refine quotable_of_read [] hread hfinish ?_ ?_
  · rw [hitems]
    simp [Reader.items, Mode.items, Block.add]
  · intro z u' hz
    have hmem : '"' ∈ ";\n".toList ++ "\x7d\n".toList := hz ▸ by simp
    exact absurd hmem (by decide)

/-- A host with a quote before it would have to end at a quote of the credentials. -/
theorem host_of_asked (htype : type ∈ knownTypes) (hu : u ≠ "") (hp : p ≠ "")
    (h : Config.read Q (generateRedsocksConf ⟨host, port, type, some u, some p⟩).toList =
      some (asked host port type u p)) (w : List Char) : host.toList ≠ '"' :: w := by
  intro hhost
  obtain ⟨r, hread, hfinish, hitems⟩ := items_of_read h
  obtain ⟨t, ht, hhead⟩ := run_confHead (Q := Q)
  obtain ⟨hconf, htypeLen, htypePlain⟩ := plain_type type htype
  -- the file behind the quote, up to the next one
  have htext : (proxyLines host port type).flatten ++ (statement "login".toList (quote u.toList) ++
      (statement "password".toList (quote p.toList) ++ "\x7d\n".toList)) =
      statement "ip".toList ('"' :: w) ++
        (statement "port".toList (toString port).toList ++ statement "type".toList type.toList ++
          "    login = ".toList ++ '"' :: (u.toList ++ ['"'] ++ ";\n".toList ++
          (statement "password".toList (quote p.toList) ++ "\x7d\n".toList))) := by
    rw [proxyLines, hconf, hhost]
    simp only [List.flatten_cons, List.flatten_nil, statement_eq, quote, List.append_assoc,
      List.cons_append, List.nil_append]
    rfl
  rw [toList_conf host port type hu hp, htext, Reader.run_append, hhead, Option.bind_some,
    run_quote ht (by decide)] at hread
  obtain ⟨s₁, s₂, v, is, hs, -, hv, his, hsize⟩ := Reader.quoted_inv hread hfinish
  have hsame : baseBlock.items ++ (localItems ++ proxyItems host port type ++
      [⟨"login".toList, u.toList⟩, ⟨"password".toList, p.toList⟩]) =
      Reader.items ⟨[baseBlock], .key ⟨"redsocks".toList, localItems⟩ []⟩ ++
        ⟨"ip".toList, host.toList⟩ :: [⟨"port".toList, (toString port).toList⟩,
          ⟨"type".toList, type.toList⟩, ⟨"login".toList, u.toList⟩,
          ⟨"password".toList, p.toList⟩] := by
    simp [Reader.items, Mode.items, proxyItems]
  rw [hitems, hsame, List.append_cancel_left_eq, List.cons.injEq, Item.mk.injEq] at his
  obtain ⟨⟨-, rfl⟩, rfl⟩ := his
  have hlong : w.length ≤ s₁.length := by
    have := Q.length_le hv
    rw [hhost] at this
    exact (Nat.le_succ _).trans this
  have hnone : '"' ∉ ";\n".toList ++ (statement "port".toList (toString port).toList ++
      statement "type".toList type.toList ++ "    login = ".toList) := by
    have hport := (plain_port port).no_quote
    have htype := htypePlain.no_quote
    simp only [statement_eq, List.mem_append, not_or]
    refine ⟨by decide, ⟨⟨⟨⟨⟨?_, ?_⟩, ?_⟩, hport⟩, ?_⟩, ⟨⟨⟨?_, ?_⟩, ?_⟩, htype⟩, ?_⟩, ?_⟩ <;> decide
  rw [← List.append_assoc (";\n".toList)] at hs
  have hlen := length_le_of_quote hs.symm hlong hnone
  have hquote : (quote p.toList).length = p.toList.length + 2 := by simp [quote]
  have hkeys : "password".toList.length = 8 ∧ "login".toList.length = 5 ∧
      "type".toList.length = 4 ∧ "port".toList.length = 4 ∧ ";\n".toList.length = 2 ∧
      "\x7d\n".toList.length = 2 := by decide
  simp only [List.length_append, List.length_singleton, length_statement, hquote] at hlen
  simp only [sizeOfItems] at hsize
  omega

end

/-- **redsocks reads what was asked for** if and only if the host has no quote before it and the
credentials can stand between quotes. -/
theorem read_asked_iff (Q : Quoting) {host : String} (port : Nat) {type u p : String}
    (hhost : Compact host.toList) (htype : type ∈ knownTypes) (hu : u ≠ "") (hp : p ≠ "") :
    Config.read Q (generateRedsocksConf ⟨host, port, type, some u, some p⟩).toList =
        some (asked host port type u p) ↔
      (∀ w, host.toList ≠ '"' :: w) ∧ Quotable Q u.toList ∧ Quotable Q p.toList := by
  constructor
  · intro h
    have hquote := host_of_asked htype hu hp h
    exact ⟨hquote, quotable_of_asked ⟨hhost, hquote⟩ htype hu hp h⟩
  · rintro ⟨hquote, hlogin, hpassword⟩
    exact read_of_quotable port ⟨hhost, hquote⟩ htype hu hp hlogin hpassword

/-! ## A reader -/

/-- A backslash stands for the character behind it. -/
def unescape : List Char → Option (List Char)
  | [] => some []
  | ['\\'] => none
  | '\\' :: c :: s => (unescape s).map (c :: ·)
  | c :: s => (unescape s).map (c :: ·)

theorem unescape_cons {c : Char} (hc : c ≠ '\\') (s : List Char) :
    unescape (c :: s) = (unescape s).map (c :: ·) := by
  rw [unescape]
  · exact fun h _ => hc h
  · exact fun _ _ h _ => hc h

theorem length_unescape_le {s t : List Char} (h : unescape s = some t) : t.length ≤ s.length := by
  induction s using unescape.induct generalizing t with
  | case1 =>
      cases h
      exact le_rfl
  | case2 => cases h
  | case3 c s ih =>
      rw [unescape] at h
      obtain ⟨u, hu, rfl⟩ := Option.map_eq_some_iff.mp h
      exact Nat.succ_le_succ ((ih hu).trans (Nat.le_succ _))
  | case4 c s hlast hmore ih =>
      rw [unescape] at h
      · obtain ⟨u, hu, rfl⟩ := Option.map_eq_some_iff.mp h
        exact Nat.succ_le_succ (ih hu)
      · exact hlast
      · exact hmore

def backslashes : Quoting where
  unescape := unescape
  length_le := length_unescape_le
  plain := by
    intro s h
    induction s with
    | nil => rfl
    | cons c s ih =>
        rw [List.mem_cons, not_or] at h
        rw [unescape_cons (Ne.symm h.1), ih h.2]
        rfl

theorem read_asked_iff_alice :
    Config.read backslashes
        (generateRedsocksConf ⟨"203.0.113.9", 1080, "socks5", some "alice", some "s3cret"⟩).toList =
      some (asked "203.0.113.9" 1080 "socks5" "alice" "s3cret") := by
  refine (read_asked_iff backslashes 1080 (by decide) (by decide) (by decide) (by decide)).mpr ?_
  refine ⟨fun w h => ?_, ?_, ?_⟩
  · cases h
  · exact quotable_of_not_mem backslashes (by decide) (by decide)
  · exact quotable_of_not_mem backslashes (by decide) (by decide)

/-- A password with a quote in it. -/
theorem not_read_asked :
    Config.read backslashes
        (generateRedsocksConf ⟨"203.0.113.9", 1080, "socks5", some "alice", some "a\"b"⟩).toList ≠
      some (asked "203.0.113.9" 1080 "socks5" "alice" "a\"b") := by
  decide +kernel

end PrivacyGuard.RedsocksConf
