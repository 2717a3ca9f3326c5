import Xmppd.ServerState

/-!
# Account files

Every account is a directory below the data directory with `user.conf`,
`roster.xml` and `offline/`. All paths are printed into buffers of fixed size,
so a long data directory cuts the file name rather than failing.
-/
namespace Xmppd.User
open CStrings FileTree LibXml Util ServerState

/-- `"%s/%s/<file>"` printed into a `char[1280]`. -/
def userPath (cfg : Config) (username file : Str) : Str :=
  (snprintf 1280 (cfg.datadir.str ++ '/' :: username ++ '/' :: file)).str

/-- `"%s/%s"` printed into a `char[1280]`. -/
def userDir (cfg : Config) (username : Str) : Str :=
  (snprintf 1280 (cfg.datadir.str ++ '/' :: username)).str

/-- `"%s/%s"` printed into a `char[1536]`. -/
def fileIn (dir file : Str) : Str := (snprintf 1536 (dir ++ '/' :: file)).str

/-- The resolved file a path string names. -/
def locate (srv : Server) (path : Str) : Option Path := srv.files.resolve srv.cfg.cwd path

/-- `fopen(path, "w")`, the write and `fclose`; `none` when the file cannot be opened. -/
def writeFile (srv : Server) (path : Str) (c : Content) : Option Server :=
  ((locate srv path).bind fun p => srv.files.write p c).map fun t => { srv with files := t }

def readFile (srv : Server) (path : Str) : Option Content :=
  (locate srv path).bind srv.files.content

def mkdir (srv : Server) (path : Str) : Option Server :=
  ((locate srv path).bind srv.files.mkdir).map fun t => { srv with files := t }

def unlink (srv : Server) (path : Str) : Server :=
  match locate srv path with
  | some p => { srv with files := srv.files.unlink p }
  | none => srv

def rmdir (srv : Server) (path : Str) : Server :=
  match locate srv path with
  | some p => { srv with files := srv.files.rmdir p }
  | none => srv

/-- `opendir` and `readdir`, without the entries that start with a dot. -/
def listDir (srv : Server) (path : Str) : List Str :=
  match locate srv path with
  | some p => if srv.files.isDir p then (srv.files.readdir p).filter fun n => n.head? ≠ some '.' else []
  | none => []

/-- `user_exists`. -/
def userExists (srv : Server) (username : Str) : Bool :=
  match locate srv (userPath srv.cfg username "user.conf") with
  | some p => srv.files.present p
  | none => false

/-- `valid_username`. -/
def validUsername (s : Str) : Bool :=
  s ≠ [] ∧ s.all fun c => c.isAlphanum ∨ c = '.' ∨ c = '-' ∨ c = '_'

def passwordLine (password : Str) : Content :=
  .text (("password = " : Str) ++ password ++ ['\n'])

def emptyRoster : Content := .xml (elem "roster" [] [])

/-- `user_create`: 0, -1 for a conflict, -2 for an invalid name, -3 for a failed
file operation. A failure leaves what earlier operations made. -/
def userCreate (srv : Server) (o : Oracle) (username password : Str) : Server × ℤ :=
  if !validUsername username then (srv, -2)
  else if userExists srv username then (srv, -1)
  else
    let userdir := userDir srv.cfg username
    match (if o.failMkdir then none else mkdir srv userdir) with
    | none => (srv, -3)
    | some srv =>
      match (if o.failConf then none
          else writeFile srv (fileIn userdir "user.conf") (passwordLine password)) with
      | none => (srv, -3)
      | some srv =>
        match (if o.failRoster then none
            else writeFile srv (fileIn userdir "roster.xml") emptyRoster) with
        | none => (srv, -3)
        | some srv =>
          match (if o.failOffline then none else mkdir srv (fileIn userdir "offline")) with
          | none => (srv, -3)
          | some srv => (srv, 0)

theorem writeFile_eq_some {srv srv' : Server} {path : Str} {c : Content}
    (h : writeFile srv path c = some srv') :
    ∃ p t, locate srv path = some p ∧ srv.files.write p c = some t ∧ srv' = { srv with files := t } := by
  unfold writeFile at h
  obtain ⟨t, ht, rfl⟩ := Option.map_eq_some_iff.mp h
  obtain ⟨p, hp, hw⟩ := Option.bind_eq_some_iff.mp ht
  exact ⟨p, t, hp, hw, rfl⟩

theorem mkdir_eq_some {srv srv' : Server} {path : Str} (h : mkdir srv path = some srv') :
    ∃ p t, locate srv path = some p ∧ srv.files.mkdir p = some t ∧ srv' = { srv with files := t } := by
  unfold mkdir at h
  obtain ⟨t, ht, rfl⟩ := Option.map_eq_some_iff.mp h
  obtain ⟨p, hp, hm⟩ := Option.bind_eq_some_iff.mp ht
  exact ⟨p, t, hp, hm, rfl⟩

/-- Nothing but the files differs. -/
def FilesOnly (srv srv' : Server) : Prop := ∃ t, srv' = { srv with files := t }

theorem FilesOnly.refl (srv : Server) : FilesOnly srv srv := ⟨srv.files, rfl⟩

theorem FilesOnly.trans {a b c : Server} (hab : FilesOnly a b) (hbc : FilesOnly b c) : FilesOnly a c := by
  obtain ⟨t, rfl⟩ := hab
  obtain ⟨u, rfl⟩ := hbc
  exact ⟨u, rfl⟩

theorem filesOnly_writeFile {srv srv' : Server} {path : Str} {c : Content} {b : Bool}
    (h : (if b then none else writeFile srv path c) = some srv') : FilesOnly srv srv' := by
  split_ifs at h
  obtain ⟨p, t, -, -, rfl⟩ := writeFile_eq_some h
  exact ⟨t, rfl⟩

theorem filesOnly_mkdir {srv srv' : Server} {path : Str} {b : Bool}
    (h : (if b then none else mkdir srv path) = some srv') : FilesOnly srv srv' := by
  split_ifs at h
  obtain ⟨p, t, -, -, rfl⟩ := mkdir_eq_some h
  exact ⟨t, rfl⟩

theorem userCreate_filesOnly (srv : Server) (o : Oracle) (username password : Str) :
    FilesOnly srv (userCreate srv o username password).1 := by
  unfold userCreate
  split
  · exact .refl srv
  split
  · exact .refl srv
  dsimp only
  split
  · exact .refl srv
  rename_i s₁ h₁
  have f₁ := filesOnly_mkdir h₁
  split
  · exact f₁
  rename_i s₂ h₂
  have f₂ := f₁.trans (filesOnly_writeFile h₂)
  split
  · exact f₂
  rename_i s₃ h₃
  have f₃ := f₂.trans (filesOnly_writeFile h₃)
  split
  · exact f₃
  rename_i s₄ h₄
  exact f₃.trans (filesOnly_mkdir h₄)

/-- Names that are refused and names already taken leave no trace. -/
theorem userCreate_new (srv : Server) (o : Oracle) (username password : Str) :
    (userCreate srv o username password).1 = srv ∨
      validUsername username = true ∧ userExists srv username = false := by
  cases hv : validUsername username with
  | false => exact Or.inl (by simp [userCreate, hv])
  | true =>
      cases he : userExists srv username with
      | false => exact Or.inr ⟨rfl, rfl⟩
      | true => exact Or.inl (by simp [userCreate, hv, he])

section
variable (srv : Server) (i : ℕ) (f : Session → Session)

@[simp] theorem locate_modify (path : Str) : locate (srv.modify i f) path = locate srv path := rfl

@[simp] theorem readFile_modify (path : Str) : readFile (srv.modify i f) path = readFile srv path := rfl

@[simp] theorem userExists_modify (username : Str) :
    userExists (srv.modify i f) username = userExists srv username := rfl

theorem writeFile_modify (path : Str) (c : Content) :
    writeFile (srv.modify i f) path c = (writeFile srv path c).map fun srv => srv.modify i f := by
  simp only [writeFile, locate_modify, Server.modify_files, Option.map_map]
  rfl

theorem mkdir_modify (path : Str) :
    mkdir (srv.modify i f) path = (mkdir srv path).map fun srv => srv.modify i f := by
  simp only [mkdir, locate_modify, Server.modify_files, Option.map_map]
  rfl

/-- The files do not depend on the session table. -/
theorem userCreate_modify (o : Oracle) (username password : Str) :
    (userCreate (srv.modify i f) o username password).1 =
      (userCreate srv o username password).1.modify i f := by
  simp only [userCreate, userExists_modify, mkdir_modify, Server.modify_cfg]
  split
  · rfl
  split
  · rfl
  cases o.failMkdir
  swap
  · rfl
  cases mkdir srv (userDir srv.cfg username) with
  | none => rfl
  | some s₁ =>
      cases o.failConf
      swap
      · rfl
      simp only [Bool.false_eq_true, if_false, Option.map_some, writeFile_modify]
      cases writeFile s₁ (fileIn (userDir srv.cfg username) "user.conf") (passwordLine password) with
      | none => rfl
      | some s₂ =>
          cases o.failRoster
          swap
          · rfl
          simp only [Bool.false_eq_true, if_false, Option.map_some, writeFile_modify]
          cases writeFile s₂ (fileIn (userDir srv.cfg username) "roster.xml") emptyRoster with
          | none => rfl
          | some s₃ =>
              cases o.failOffline
              swap
              · rfl
              simp only [Bool.false_eq_true, if_false, Option.map_some, mkdir_modify]
              cases mkdir s₃ (fileIn (userDir srv.cfg username) "offline") with
              | none => rfl
              | some s₄ => rfl

end

/-- `user_change_password`. -/
def userChangePassword (srv : Server) (username password : Str) : Server × ℤ :=
  match writeFile srv (userPath srv.cfg username "user.conf") (passwordLine password) with
  | none => (srv, -1)
  | some srv => (srv, 0)

/-- `user_delete`. -/
def userDelete (srv : Server) (username : Str) : Server :=
  let userdir := userDir srv.cfg username
  let offlinedir := fileIn userdir "offline"
  let srv := (listDir srv offlinedir).foldl
    (fun srv n => unlink srv (snprintf 1792 (offlinedir ++ '/' :: n)).str) srv
  let srv := rmdir srv offlinedir
  let srv := unlink srv (fileIn userdir "user.conf")
  let srv := unlink srv (fileIn userdir "roster.xml")
  rmdir srv userdir

def isSpace (c : Char) : Bool :=
  c = ' ' ∨ c = '\t' ∨ c = '\n' ∨ c = '\x0b' ∨ c = '\x0c' ∨ c = '\r'

/-- What one `fgets` into a `char[1024]` returns. -/
def fgets (s : Str) : Str := (s.takeWhile (· ≠ '\n') ++ (s.dropWhile (· ≠ '\n')).take 1).take 1023

def fgetsLines : ℕ → Str → List Str
  | 0, _ => []
  | _, [] => []
  | n+1, s => fgets s :: fgetsLines n (s.drop (fgets s).length)

def trimRight (s : Str) : Str := (s.reverse.dropWhile isSpace).reverse

/-- The key and value of one line, where it has them. -/
def confLine (line : Str) : Option (Str × Str) :=
  let s := (line.takeWhile fun c => c ≠ '\n' ∧ c ≠ '\r' ∧ c ≠ '\x00').dropWhile isSpace
  if s = [] ∨ s.head? = some '#' then none else
    (s.findIdx? (· == '=')).map fun eq =>
      (trimRight (s.take eq), trimRight ((s.drop (eq+1)).dropWhile isSpace))

/-- `user_check_password`: the first `password` line decides. -/
def userCheckPassword (srv : Server) (username password : Str) : Bool :=
  match readFile srv (userPath srv.cfg username "user.conf") with
  | some (.text s) =>
      match ((fgetsLines s.length s).filterMap confLine).find? fun kv => kv.1 = ("password" : Str) with
      | some kv => kv.2 = password
      | none => false
  | _ => false

end Xmppd.User
