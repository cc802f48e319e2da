import PetDuel.Battle.Basic
import PetDuel.Snapshot.Bytes

/-!
The snapshot of a scene: every field in a fixed order, without names. What was kept of earlier
scenes is no part of it.
-/

namespace PetDuel.Snapshot

def options (o : Options) : List UInt8 := list (fun e => text e.1 ++ text e.2) o.entries

def carrier : Carrier → List UInt8
  | .nothing => variant 0
  | .skill id => variant 1 ++ int32 id
  | .buff id => variant 2 ++ int32 id

def effect (e : Effect) : List UInt8 :=
  variant e.timing.code ++ variant e.ability.index ++ options e.options ++
    optional (fun id => uint32 id.number) e.invoker ++ carrier e.carrier

def template (t : BuffTemplate) : List UInt8 :=
  int32 t.id ++ int32 t.icon ++ text t.name ++ variant t.category.code ++ variant t.policy.code ++
    int32 t.turn ++ flag t.keep ++ flag t.inherit ++ flag t.hidden ++ flag t.autoRemove ++
    int32 t.minValue ++ int32 t.maxValue ++ text t.description ++ options t.options ++
    list effect t.effects

def buff (b : Buff) : List UInt8 :=
  int32 b.id ++ int32 b.turn ++ int32 b.value ++ options b.options ++ template b.template

def skill (s : Skill) : List UInt8 :=
  int32 s.id ++ text s.name ++ int32 s.element ++ variant s.kind.index ++ int32 s.power ++
    int32 s.anger ++ int32 s.accuracy ++ options s.options ++ text s.description ++
    list effect s.effects ++ double s.critical ++ int32 s.priority ++ int32 s.combo ++
    flag s.secondSuper ++ flag s.ignoreShield ++ flag s.ignoreStages ++ list text s.buffRefs

def stats (s : Stats) : List UInt8 := s.toList.flatMap double

def pet (p : Pet) : List UInt8 :=
  int32 p.id ++ int32 p.baseId ++ int32 p.element ++ int32 p.subElement ++ int32 p.personality ++
    int32 p.height ++ int32 p.weight ++ int32 p.level ++ uint32 p.exp ++ int32 p.iv ++
    p.ev.toList.flatMap int32 ++ int32 p.evStorage ++ flag p.emblem ++ int32 p.featureId ++
    int32 p.emblemId ++ list (fun r => text r.1 ++ double r.2) p.records ++ list int32 p.skills ++
    list buff p.entryBuffs ++ stats p.normal ++ stats p.current

def sheet (s : StatSheet) : List UInt8 :=
  stats s.entry ++ stats s.added ++ stats s.stages.toStats ++ int32 s.stageLimit ++
    int32 s.minAnger ++ int32 s.maxAnger

def board (b : BuffBoard) : List UInt8 :=
  list buff b.active ++ list int32 b.blockedIds ++
    list (fun r => int32 r.1 ++ int32 r.2) b.blockedRanges

def fighter (f : Fighter) : List UInt8 :=
  pet f.pet ++ int32 f.hp ++ int32 f.anger ++ sheet f.sheet ++ board f.board

def team (t : Team) : List UInt8 := list fighter t.fighters ++ size t.cursor

def turnRecord (t : TurnRecord) : List UInt8 :=
  skill t.skill ++ int32 t.skillDamage ++ int32 t.itemDamage ++ int32 t.buffDamage ++
    int32 t.skillHeal ++ int32 t.itemHeal ++ int32 t.buffHeal ++ flag t.hit ++ flag t.critical ++
    double t.relation

def stream (r : Random.Stream) : List UInt8 := uint64 r.seed ++ position r.position.val

def duelist (d : Duelist) : List UInt8 :=
  uint32 d.id.number ++ team d.team ++ turnRecord d.turn ++ stream d.stream ++ flag d.done

def scene (s : Scene) : List UInt8 :=
  variant s.phase.code ++ uint32 s.turn ++ duelist s.own ++ duelist s.opposing ++
    uint32 s.acting.number ++ variant s.outcome.index ++ list size s.sentOut ++
    variant s.weather.code

end PetDuel.Snapshot

namespace PetDuel

/-- The snapshot of a duel as it stands. -/
def Battle.snapshot (b : Battle) : List UInt8 := Snapshot.scene b.scene

end PetDuel
