import AraNotification.Lib.Masking

/-! # The masked database URL

What a PostgreSQL pool shows of its connection URL, after `infrastructure/postgres/pool.rs`.  The password is
taken to stand between the first `@` of the URL and the last `:` before it.

A password with a `:` or an `@` reaches beyond these.  Two URLs that differ in the password look alike exactly
when the passwords differ in the hidden piece only (`masked_eq_iff`). -/

namespace AraNotification

open Masking

/-- A PostgreSQL connection pool, with the URL it was created from. -/
structure PostgresPool where
  databaseUrl : String

/-- Get the database URL, masked for logging. -/
def PostgresPool.databaseUrlMasked (pool : PostgresPool) : String :=
  let url := pool.databaseUrl.toList
  match url.idxOf? '@' with
  | some atPos =>
      match lastIdxOf? ':' (url.take atPos) with
      | some colonPos => String.ofList (url.take (colonPos + 1) ++ ['*', '*', '*'] ++ url.drop atPos)
      | none => pool.databaseUrl
  | none => pool.databaseUrl

namespace DatabaseUrl

/-- A connection URL with a user and a password. -/
def connectionUrl (scheme user password host : String) : String :=
  scheme ++ "://" ++ user ++ ":" ++ password ++ "@" ++ host

/-- What the pool of a connection URL shows. -/
def masked (scheme user password host : String) : String :=
  PostgresPool.databaseUrlMasked ⟨connectionUrl scheme user password host⟩

/-- What stands before the colon of the password. -/
def userPart (scheme user : String) : List Char := (scheme ++ "://" ++ user).toList

/-! ### The cover -/

/-- What follows the last `:` before the first `@` is covered. -/
theorem databaseUrlMasked_split (pool : PostgresPool) {before after : List Char}
    (hurl : pool.databaseUrl.toList = before ++ '@' :: after) (h : '@' ∉ before) :
    pool.databaseUrlMasked.toList = coverLast ':' ['*', '*', '*'] before ++ '@' :: after := by
  simp only [PostgresPool.databaseUrlMasked, hurl, idxOf?_join h, List.take_left, List.drop_left]
  by_cases hcolon : ':' ∈ before
  · obtain ⟨a, b, rfl, hb⟩ := exists_last hcolon
    have htake : (a ++ ':' :: b ++ '@' :: after).take (a.length + 1) = a ++ [':'] := by
      rw [List.append_assoc, List.cons_append, List.append_cons, List.take_left' (by simp)]
    simp only [lastIdxOf?_join hb, htake, coverLast_join hb, String.toList_ofList]
    simp
  · simp only [lastIdxOf?_eq_none hcolon, coverLast_of_not_mem hcolon, hurl]

/-! ### Two passwords -/

section passwords
variable {scheme user password host p q : String} {lead hidden tail : List Char}

theorem toList_connectionUrl : (connectionUrl scheme user password host).toList =
    userPart scheme user ++ ':' :: (password.toList ++ '@' :: host.toList) := by
  simp [connectionUrl, userPart]

theorem mem_userPart_iff : '@' ∈ userPart scheme user ↔ '@' ∈ scheme.toList ∨ '@' ∈ user.toList := by
  simp [userPart]

/-- The hidden piece of the password is covered, and everything else is shown. -/
theorem toList_masked (hfree : '@' ∉ userPart scheme user) (hpiece : Piece ':' '@' lead hidden tail)
    (hpassword : password.toList = lead ++ hidden ++ tail) :
    (masked scheme user password host).toList =
      userPart scheme user ++ ':' :: (lead ++ ['*', '*', '*']) ++ (tail ++ '@' :: host.toList) := by
  obtain ⟨b, hb⟩ := hpiece.exists_rest host.toList
  have hbefore : '@' ∉ userPart scheme user ++ ':' :: (lead ++ hidden) := by
    simp [hfree, hpiece.before, hpiece.noSecond]
  have hurl : (connectionUrl scheme user password host).toList =
      userPart scheme user ++ ':' :: (lead ++ hidden) ++ '@' :: b := by
    rw [toList_connectionUrl, hpassword, ← hb]
    simp
  rw [masked, databaseUrlMasked_split ⟨connectionUrl scheme user password host⟩ hurl hbefore, hpiece.coverLast, hb]

/-- A password without `:` and `@` is covered as a whole. -/
theorem masked_of_plain (hfree : '@' ∉ userPart scheme user) (hcolon : ':' ∉ password.toList)
    (hat : '@' ∉ password.toList) : masked scheme user password host = connectionUrl scheme user "***" host := by
  have hpiece : Piece ':' '@' [] password.toList [] := ⟨List.not_mem_nil, .inl rfl, hcolon, hat, .inl rfl⟩
  rw [← String.toList_inj, toList_masked hfree hpiece (List.append_nil _).symm, toList_connectionUrl]
  simp

/-- An `@` before the password leaves all of it in sight. -/
theorem eq_of_masked_eq (hmem : '@' ∈ userPart scheme user)
    (h : masked scheme user p host = masked scheme user q host) : p = q := by
  obtain ⟨a, b, hab, ha⟩ := List.eq_append_cons_of_mem hmem
  have hmasked : ∀ password, (masked scheme user password host).toList =
      coverLast ':' ['*', '*', '*'] a ++ '@' :: (b ++ ':' :: (password.toList ++ '@' :: host.toList)) := by
    intro password
    refine databaseUrlMasked_split ⟨_⟩ ?_ ha
    rw [toList_connectionUrl, hab]
    simp
  have hlist := congrArg String.toList h
  rw [hmasked, hmasked] at hlist
  simpa [String.toList_inj] using hlist

/-- Masked URLs that look alike have the same text outside of the hidden pieces. -/
theorem sameOutside_of_masked_eq (hfree : '@' ∉ userPart scheme user)
    (h : masked scheme user p host = masked scheme user q host) : SameOutside ':' '@' p.toList q.toList := by
  obtain ⟨lead, hidden, tail, hpiece, hp⟩ := exists_piece ':' '@' p.toList
  obtain ⟨lead', hidden', tail', hpiece', hq⟩ := exists_piece ':' '@' q.toList
  have hlist := congrArg String.toList h
  rw [toList_masked hfree hpiece hp, toList_masked hfree hpiece' hq] at hlist
  obtain ⟨rfl, rfl⟩ := covered_inj (by decide) hfree (by decide) hpiece hpiece' hlist
  exact ⟨lead, hidden, hidden', tail, hpiece, hpiece', hp, hq⟩

/-- **The masked URLs of two passwords are equal if and only if the passwords are the same but for their
hidden pieces**, as far as there is no `@` before the password. -/
theorem masked_eq_iff (scheme user p q host : String) :
    masked scheme user p host = masked scheme user q host ↔
      p = q ∨ '@' ∉ scheme.toList ∧ '@' ∉ user.toList ∧ SameOutside ':' '@' p.toList q.toList := by
  constructor
  · intro h
    by_cases hmem : '@' ∈ userPart scheme user
    · exact .inl (eq_of_masked_eq hmem h)
    · obtain ⟨hscheme, huser⟩ := not_or.mp (mem_userPart_iff.not.mp hmem)
      exact .inr ⟨hscheme, huser, sameOutside_of_masked_eq hmem h⟩
  · rintro (rfl | ⟨hscheme, huser, lead, hidden, hidden', tail, hpiece, hpiece', hp, hq⟩)
    · rfl
    · have hfree : '@' ∉ userPart scheme user := mem_userPart_iff.not.mpr (not_or.mpr ⟨hscheme, huser⟩)
      rw [← String.toList_inj, toList_masked hfree hpiece hp, toList_masked hfree hpiece' hq]

/-- A password with an `@`: what follows it is in sight. -/
theorem not_masked_at : ¬ ∀ scheme user host p q : String, ':' ∉ user.toList → '@' ∉ user.toList →
    '@' ∉ host.toList → p ≠ "" → q ≠ "" → masked scheme user p host = masked scheme user q host := by
  intro hall
  have h := hall "postgres" "user" "localhost:5432/db" "p@ss1" "p@ss2" (by decide) (by decide) (by decide) (by decide)
    (by decide)
  exact absurd h (by decide)

end passwords

end DatabaseUrl

end AraNotification
