import JsonApi.Value.Basic

/-!
Equality of values as they are written: values of different types differ, and so do lists with
different items. Main statement: `alike` decides equality.
-/

namespace JsonApi.Value

mutual
def alike : Value → Value → Bool
  | .null, .null => true
  | .bool a, .bool b => a == b
  | .int a, .int b => a == b
  | .double a, .double b => decide (a = b)
  | .text a, .text b => a == b
  | .bytes a, .bytes b => a == b
  | .decimal a, .decimal b => decide (a = b)
  | .uuid a, .uuid b => a == b
  | .date a, .date b => decide (a = b)
  | .clock a, .clock b => decide (a = b)
  | .moment a, .moment b => decide (a = b)
  | .span a, .span b => decide (a = b)
  | .complex re im, .complex re' im' => decide (re = re') && decide (im = im')
  | .list as, .list bs => alikeItems as bs
  | .tuple as, .tuple bs => alikeItems as bs
  | .set frozen as, .set frozen' bs => frozen == frozen' && alikeItems as bs
  | .dict as, .dict bs => alikeEntries as bs
  | .record shape fields extra, .record shape' fields' extra' =>
    decide (shape = shape') && alikeMembers fields fields' && alikeMembers extra extra'
  | .problem kind detail message status code parameter,
    .problem kind' detail' message' status' code' parameter' =>
    decide (kind = kind') && detail == detail' && alike message message' && alike status status' &&
      alike code code' && alike parameter parameter'
  | .breach kind message, .breach kind' message' => decide (kind = kind') && message == message'
  | .foreign as, .foreign bs => alikeMembers as bs
  | _, _ => false

def alikeItems : List Value → List Value → Bool
  | [], [] => true
  | a :: as, b :: bs => alike a b && alikeItems as bs
  | _, _ => false

def alikeEntries : List (Value × Value) → List (Value × Value) → Bool
  | [], [] => true
  | (key, a) :: as, (key', b) :: bs => alike key key' && alike a b && alikeEntries as bs
  | _, _ => false

def alikeMembers : List (String × Value) → List (String × Value) → Bool
  | [], [] => true
  | (name, a) :: as, (name', b) :: bs => name == name' && alike a b && alikeMembers as bs
  | _, _ => false
end

mutual
theorem alike_iff : (a b : Value) → (alike a b = true ↔ a = b)
  | .null, b => by cases b <;> simp [alike]
  | .bool _, b => by cases b <;> simp [alike]
  | .int _, b => by cases b <;> simp [alike]
  | .double _, b => by cases b <;> simp [alike]
  | .text _, b => by cases b <;> simp [alike]
  | .bytes _, b => by cases b <;> simp [alike]
  | .decimal _, b => by cases b <;> simp [alike]
  | .uuid _, b => by cases b <;> simp [alike]
  | .date _, b => by cases b <;> simp [alike]
  | .clock _, b => by cases b <;> simp [alike]
  | .moment _, b => by cases b <;> simp [alike]
  | .span _, b => by cases b <;> simp [alike]
  | .complex _ _, b => by cases b <;> simp [alike]
  | .list as, b => by cases b <;> simp [alike, alikeItems_iff as]
  | .tuple as, b => by cases b <;> simp [alike, alikeItems_iff as]
  | .set _ as, b => by cases b <;> simp [alike, alikeItems_iff as]
  | .dict as, b => by cases b <;> simp [alike, alikeEntries_iff as]
  | .record _ fields extra, b => by
    cases b <;> simp [alike, alikeMembers_iff fields, alikeMembers_iff extra, and_assoc]
  | .problem _ _ message status code parameter, b => by
    cases b <;> simp [alike, alike_iff message, alike_iff status, alike_iff code,
      alike_iff parameter, and_assoc]
  | .breach _ _, b => by cases b <;> simp [alike]
  | .foreign as, b => by cases b <;> simp [alike, alikeMembers_iff as]

theorem alikeItems_iff : (as bs : List Value) → (alikeItems as bs = true ↔ as = bs)
  | [], bs => by cases bs <;> simp [alikeItems]
  | a :: as, bs => by cases bs <;> simp [alikeItems, alike_iff a, alikeItems_iff as]

theorem alikeEntries_iff : (as bs : List (Value × Value)) → (alikeEntries as bs = true ↔ as = bs)
  | [], bs => by cases bs <;> simp [alikeEntries]
  | _ :: _, [] => by simp [alikeEntries]
  | (key, a) :: as, (_, _) :: _ => by
    simp [alikeEntries, alike_iff key, alike_iff a, alikeEntries_iff as]

theorem alikeMembers_iff :
    (as bs : List (String × Value)) → (alikeMembers as bs = true ↔ as = bs)
  | [], bs => by cases bs <;> simp [alikeMembers]
  | _ :: _, [] => by simp [alikeMembers]
  | (_, a) :: as, (_, _) :: _ => by simp [alikeMembers, alike_iff a, alikeMembers_iff as]
end

instance : DecidableEq Value := fun a b => decidable_of_iff (alike a b = true) (alike_iff a b)

end JsonApi.Value
