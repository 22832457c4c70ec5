import ArchChange.Text.Blank
/-!
The element types of the architecture language, each with a label, a layer and an aspect. The id
of a type is its label in lower case with hyphens for spaces.
-/
namespace ArchChange

/-- The layer of the architecture that an element type belongs to. -/
inductive Layer where
  | strategy
  | business
  | application
  | technology
  | physical
  | motivation
  | implementation
  | other
deriving DecidableEq, Repr

namespace Layer

/-- The rank of a core layer; a layer serves those of its own rank and above. -/
def servingRank : Layer → Option Nat
  | technology | physical => some 0
  | application => some 1
  | business => some 2
  | _ => none

/-- Whether a layer is one of those with active, behavioural and passive elements. -/
def isCore (l : Layer) : Bool :=
  l.servingRank.isSome

end Layer

/-- What an element type is within its layer. -/
inductive Aspect where
  | activeStructure
  | behavior
  | event
  | service
  | interface
  | passiveStructure
  | composite
  | motivation
  | connector
deriving DecidableEq, Repr

namespace Aspect

/-- Behaviour in the wide sense, events and services included. -/
def isBehavioral : Aspect → Bool
  | behavior | event | service => true
  | _ => false

/-- Active structure in the wide sense, interfaces included. -/
def isActive : Aspect → Bool
  | activeStructure | interface => true
  | _ => false

end Aspect

inductive ElementType where
  | resource
  | capability
  | valueStream
  | courseOfAction
  | businessActor
  | businessRole
  | businessCollaboration
  | businessInterface
  | businessProcess
  | businessFunction
  | businessInteraction
  | businessEvent
  | businessService
  | businessObject
  | contract
  | representation
  | product
  | applicationComponent
  | applicationCollaboration
  | applicationInterface
  | applicationFunction
  | applicationInteraction
  | applicationProcess
  | applicationEvent
  | applicationService
  | dataObject
  | node
  | device
  | systemSoftware
  | technologyCollaboration
  | technologyInterface
  | path
  | communicationNetwork
  | technologyFunction
  | technologyProcess
  | technologyInteraction
  | technologyEvent
  | technologyService
  | artifact
  | equipment
  | facility
  | distributionNetwork
  | material
  | stakeholder
  | driver
  | assessment
  | goal
  | outcome
  | principle
  | requirement
  | constraint
  | meaning
  | value
  | workPackage
  | deliverable
  | implementationEvent
  | plateau
  | gap
  | grouping
  | location
  | junction
deriving DecidableEq, Repr

/-- What is fixed for an element type. -/
structure ElementTypeInfo where
  label : String
  layer : Layer
  aspect : Aspect

namespace ElementType

/-- All element types, in the order of the language. -/
def all : List ElementType :=
  [.resource, .capability, .valueStream, .courseOfAction, .businessActor, .businessRole,
   .businessCollaboration, .businessInterface, .businessProcess, .businessFunction,
   .businessInteraction, .businessEvent, .businessService, .businessObject, .contract,
   .representation, .product, .applicationComponent, .applicationCollaboration,
   .applicationInterface, .applicationFunction, .applicationInteraction, .applicationProcess,
   .applicationEvent, .applicationService, .dataObject, .node, .device, .systemSoftware,
   .technologyCollaboration, .technologyInterface, .path, .communicationNetwork,
   .technologyFunction, .technologyProcess, .technologyInteraction, .technologyEvent,
   .technologyService, .artifact, .equipment, .facility, .distributionNetwork, .material,
   .stakeholder, .driver, .assessment, .goal, .outcome, .principle, .requirement, .constraint,
   .meaning, .value, .workPackage, .deliverable, .implementationEvent, .plateau, .gap, .grouping,
   .location, .junction]

def info : ElementType → ElementTypeInfo
  | resource => ⟨"Resource", .strategy, .activeStructure⟩
  | capability => ⟨"Capability", .strategy, .behavior⟩
  | valueStream => ⟨"Value Stream", .strategy, .behavior⟩
  | courseOfAction => ⟨"Course of Action", .strategy, .behavior⟩
  | businessActor => ⟨"Business Actor", .business, .activeStructure⟩
  | businessRole => ⟨"Business Role", .business, .activeStructure⟩
  | businessCollaboration => ⟨"Business Collaboration", .business, .activeStructure⟩
  | businessInterface => ⟨"Business Interface", .business, .interface⟩
  | businessProcess => ⟨"Business Process", .business, .behavior⟩
  | businessFunction => ⟨"Business Function", .business, .behavior⟩
  | businessInteraction => ⟨"Business Interaction", .business, .behavior⟩
  | businessEvent => ⟨"Business Event", .business, .event⟩
  | businessService => ⟨"Business Service", .business, .service⟩
  | businessObject => ⟨"Business Object", .business, .passiveStructure⟩
  | contract => ⟨"Contract", .business, .passiveStructure⟩
  | representation => ⟨"Representation", .business, .passiveStructure⟩
  | product => ⟨"Product", .business, .composite⟩
  | applicationComponent => ⟨"Application Component", .application, .activeStructure⟩
  | applicationCollaboration => ⟨"Application Collaboration", .application, .activeStructure⟩
  | applicationInterface => ⟨"Application Interface", .application, .interface⟩
  | applicationFunction => ⟨"Application Function", .application, .behavior⟩
  | applicationInteraction => ⟨"Application Interaction", .application, .behavior⟩
  | applicationProcess => ⟨"Application Process", .application, .behavior⟩
  | applicationEvent => ⟨"Application Event", .application, .event⟩
  | applicationService => ⟨"Application Service", .application, .service⟩
  | dataObject => ⟨"Data Object", .application, .passiveStructure⟩
  | node => ⟨"Node", .technology, .activeStructure⟩
  | device => ⟨"Device", .technology, .activeStructure⟩
  | systemSoftware => ⟨"System Software", .technology, .activeStructure⟩
  | technologyCollaboration => ⟨"Technology Collaboration", .technology, .activeStructure⟩
  | technologyInterface => ⟨"Technology Interface", .technology, .interface⟩
  | path => ⟨"Path", .technology, .activeStructure⟩
  | communicationNetwork => ⟨"Communication Network", .technology, .activeStructure⟩
  | technologyFunction => ⟨"Technology Function", .technology, .behavior⟩
  | technologyProcess => ⟨"Technology Process", .technology, .behavior⟩
  | technologyInteraction => ⟨"Technology Interaction", .technology, .behavior⟩
  | technologyEvent => ⟨"Technology Event", .technology, .event⟩
  | technologyService => ⟨"Technology Service", .technology, .service⟩
  | artifact => ⟨"Artifact", .technology, .passiveStructure⟩
  | equipment => ⟨"Equipment", .physical, .activeStructure⟩
  | facility => ⟨"Facility", .physical, .activeStructure⟩
  | distributionNetwork => ⟨"Distribution Network", .physical, .activeStructure⟩
  | material => ⟨"Material", .physical, .passiveStructure⟩
  | stakeholder => ⟨"Stakeholder", .motivation, .motivation⟩
  | driver => ⟨"Driver", .motivation, .motivation⟩
  | assessment => ⟨"Assessment", .motivation, .motivation⟩
  | goal => ⟨"Goal", .motivation, .motivation⟩
  | outcome => ⟨"Outcome", .motivation, .motivation⟩
  | principle => ⟨"Principle", .motivation, .motivation⟩
  | requirement => ⟨"Requirement", .motivation, .motivation⟩
  | constraint => ⟨"Constraint", .motivation, .motivation⟩
  | meaning => ⟨"Meaning", .motivation, .motivation⟩
  | value => ⟨"Value", .motivation, .motivation⟩
  | workPackage => ⟨"Work Package", .implementation, .behavior⟩
  | deliverable => ⟨"Deliverable", .implementation, .passiveStructure⟩
  | implementationEvent => ⟨"Implementation Event", .implementation, .event⟩
  | plateau => ⟨"Plateau", .implementation, .composite⟩
  | gap => ⟨"Gap", .implementation, .passiveStructure⟩
  | grouping => ⟨"Grouping", .other, .composite⟩
  | location => ⟨"Location", .other, .composite⟩
  | junction => ⟨"Junction", .other, .connector⟩

/-- The name of a type in plans. -/
def label (t : ElementType) : String :=
  t.info.label

def layer (t : ElementType) : Layer :=
  t.info.layer

def aspect (t : ElementType) : Aspect :=
  t.info.aspect

/-- The name of a type in models. -/
def id (t : ElementType) : String :=
  String.ofList (t.label.toList.map fun c => if c = ' ' then '-' else c.toLower)

/-- The type with the given id. -/
def ofId? (s : String) : Option ElementType :=
  all.find? fun t => t.id == s

/-- The type whose label or id is the given text, up to blanks around it and letter case. -/
def ofLabel? (s : String) : Option ElementType :=
  let s := Text.trimmed s
  all.find? fun t => Text.sameLetters t.label s || Text.sameLetters t.id s

end ElementType

end ArchChange
