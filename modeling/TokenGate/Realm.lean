/-!
# The realm

The realm knows its subjects and grants them roles.

* `SubjectRecord`   whether a subject is known, and the roles it is granted;
* `StoreFault`      why the identity store could not answer;
* `Realm`           the answer to each subject, at one point in time;
* `Directory`       a table of subjects that can be changed; `Directory.realm` is what it answers.
-/

namespace TokenGate

structure SubjectRecord where
  known : Bool
  roles : List String
  deriving DecidableEq, Repr

namespace SubjectRecord

def ofRoles (roles : List String) : SubjectRecord := ⟨true, roles⟩

def unknown : SubjectRecord := ⟨false, []⟩

end SubjectRecord

inductive StoreFault where
  | unavailable (cause : String)
  | internal (cause : String)
  deriving DecidableEq, Repr

def StoreFault.message : StoreFault → String
  | .unavailable cause => "Identity store unavailable: " ++ cause
  | .internal cause => "Identity store error: " ++ cause

abbrev Realm := String → Except StoreFault SubjectRecord

/-! ## directories -/

/-- subjects with their roles, each subject once -/
structure Directory where
  entries : List (String × List String)

namespace Directory

def empty : Directory := ⟨[]⟩

def roles? (d : Directory) (subject : String) : Option (List String) := d.entries.lookup subject

def remove (d : Directory) (subject : String) : Directory :=
  ⟨d.entries.filter fun e => e.1 != subject⟩

/-- add a subject or replace its roles -/
def insert (d : Directory) (subject : String) (roles : List String) : Directory :=
  ⟨(subject, roles) :: (d.remove subject).entries⟩

def contains (d : Directory) (subject : String) : Bool := (d.roles? subject).isSome

def confirm (d : Directory) (subject : String) : SubjectRecord :=
  match d.roles? subject with
  | some roles => .ofRoles roles
  | none => .unknown

def realm (d : Directory) : Realm := fun subject => .ok (d.confirm subject)

end Directory

end TokenGate
